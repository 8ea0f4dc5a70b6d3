import Journey.Rpc.Link

/-!
The history of a link: which requests have come up, what the server has written, the lines that were
taken in, and what callers were told. One event is told by what it adds to each of these; what holds of
the history of every run is derived from that. How a single request is answered is stated separately.
-/

namespace Journey.Rpc

/-- A line as it was taken in: what of it had been lost by then, what was left to read, and whether
it ended in a line break or with the server. -/
structure Intake where
  lost : List UInt8
  line : List UInt8
  ended : Bool
  deriving DecidableEq

namespace Intake

/-- What the server had written of it. -/
def bytes (t : Intake) : List UInt8 := t.lost ++ t.line ++ if t.ended then [newline] else []

def response? (json : Node.Reader) (t : Intake) : Option Response :=
  (textOf? t.line).bind (Response.parse? json)

/-- It is one line of what the server wrote. -/
def IsLine (t : Intake) : Prop := newline ∉ t.lost ++ t.line

end Intake

theorem splitLine_eq_some {bytes line rest : List UInt8} (h : splitLine bytes = some (line, rest)) :
    bytes = line ++ newline :: rest ∧ newline ∉ line := by
  induction bytes generalizing line with
  | nil => cases h
  | cons b more ih =>
      simp only [splitLine] at h
      split at h
      case isTrue ends =>
        obtain ⟨rfl, rfl⟩ := Prod.mk.inj (Option.some.inj h)
        exact ⟨by rw [ends]; rfl, List.not_mem_nil⟩
      case isFalse goesOn =>
        obtain ⟨⟨inner, after⟩, found, same⟩ := Option.map_eq_some_iff.mp h
        obtain ⟨rfl, rfl⟩ := Prod.mk.inj same
        obtain ⟨split, plain⟩ := ih found
        refine ⟨by rw [split]; rfl, ?_⟩
        exact fun mem => (List.mem_cons.mp mem).elim (fun ends => goesOn ends.symm) plain

theorem splitLine_eq_none {bytes : List UInt8} (h : splitLine bytes = none) : newline ∉ bytes := by
  induction bytes with
  | nil => exact List.not_mem_nil
  | cons b more ih =>
      simp only [splitLine] at h
      split at h
      case isTrue => cases h
      case isFalse goesOn =>
        have plain := ih (Option.map_eq_none_iff.mp h)
        exact fun mem => (List.mem_cons.mp mem).elim (fun ends => goesOn ends.symm) plain

/-- How a line is taken in: it is no text, or nobody waits for it, or it answers a request. -/
inductive Link.Receives (json : Node.Reader) (l : Link) (t : Intake) : Link × List Delivery → Prop
  | garbled (no : textOf? t.line = none) : Receives json l t l.close
  | passedOver {text : String} (shown : textOf? t.line = some text)
      (nobody : ∀ response, t.response? json = some response → response.id ∉ l.waiting) :
      Receives json l t (l, [])
  | answered {response : Response} (read : t.response? json = some response)
      (waits : response.id ∈ l.waiting) :
      Receives json l t ({ l with waiting := l.waiting.filter (· != response.id) },
        [⟨response.id, response.outcome⟩])

theorem Link.receives (json : Node.Reader) (l : Link) (t : Intake) :
    l.Receives json t (l.receive json t.line) := by
  simp only [receive]
  split
  case h_1 no => exact .garbled no
  case h_2 text shown =>
    have parsed : t.response? json = Response.parse? json text := by rw [Intake.response?, shown]; rfl
    split
    case h_1 none =>
      refine .passedOver shown fun response read => ?_
      rw [parsed, none] at read
      cases read
    case h_2 response found =>
      split
      case isTrue waits => exact .answered (parsed.trans found) (by simpa using waits)
      case isFalse nobody =>
        refine .passedOver shown fun other read => ?_
        obtain rfl := Option.some.inj ((parsed.trans found).symm.trans read)
        simpa using nobody

theorem Link.Receives.reader {json : Node.Reader} {l : Link} {t : Intake}
    {next : Link × List Delivery} (receives : l.Receives json t next) : next.1.held = l.held ∧ next.1.ahead = l.ahead := by
  cases receives <;> exact ⟨rfl, rfl⟩

/-- The request that comes up. -/
def Event.asked? : Event → Option Nat
  | .submit id _ => some id
  | .abandon _ | .output _ | .stop | .read | .hangUp => none

/-- The line that reading gets to the end of, if it does, and whether it ends in a line break. -/
def Link.line? (l : Link) : Option (List UInt8 × Bool) :=
  match splitLine l.ahead with
  | some (line, _) => some (l.held ++ line, true)
  | none =>
      if l.stopped && !(l.held ++ l.ahead).isEmpty then some (l.held ++ l.ahead, false) else none

theorem Link.line?_eq_none {l : Link} (nothing : l.held ++ l.ahead = []) : l.line? = none := by
  simp [line?, List.append_eq_nil_iff.mp nothing, splitLine]

/-- A link and its history: the requests that have come up, what the server has written while it was
listened to, what of the line under way is lost, the lines taken in, and what callers were told. -/
structure History where
  link : Link
  asked : List Nat
  sent : List UInt8
  lost : List UInt8
  taken : List Intake
  told : List Delivery

namespace History

variable (json : Node.Reader)

def start : History := ⟨.start, [], [], [], [], []⟩

/-- What one event adds. -/
def next (h : History) (event : Event) : History :=
  let (link, told) := h.link.step json event
  let after := { h with
    link := link
    asked := h.asked ++ event.asked?.toList
    told := h.told ++ told }
  if h.link.isOpen then
    match event with
    | .submit _ _ => { after with lost := h.lost ++ h.link.held }
    | .output bytes => if h.link.stopped then after else { after with sent := h.sent ++ bytes }
    | .read =>
        match h.link.line? with
        | some (line, ended) =>
            { after with lost := [], taken := h.taken ++ [⟨h.lost, line, ended⟩] }
        | none => after
    | .abandon _ | .stop | .hangUp => after
  else after

def runs (h : History) (events : List Event) : History := events.foldl (next json) h

def of (events : List Event) : History := start.runs json events

/-- The history is that of the link's own run. -/
theorem runs_link (h : History) (events : List Event) :
    (h.runs json events).link = (h.link.run json events).1 ∧
      (h.runs json events).told = h.told ++ (h.link.run json events).2 := by
  induction events generalizing h with
  | nil => exact ⟨rfl, (List.append_nil _).symm⟩
  | cons event events ih =>
      have link : (h.next json event).link = (h.link.step json event).1 := by
        simp only [next]
        repeat' split
        all_goals rfl
      have told : (h.next json event).told = h.told ++ (h.link.step json event).2 := by
        simp only [next]
        repeat' split
        all_goals rfl
      obtain ⟨link', told'⟩ := ih (h.next json event)
      constructor
      · exact link'.trans (by rw [link]; rfl)
      · exact told'.trans (by rw [told, link, List.append_assoc]; rfl)

/-- Events that change nothing: a caller gives up, the server writes after it has stopped, or the link
is closed and no request comes up. -/
inductive Idle (l : Link) : Event → Prop
  | abandon (id : Nat) : Idle l (.abandon id)
  | late (bytes : List UInt8) (stopped : l.stopped = true) : Idle l (.output bytes)
  | closed {event : Event} (shut : l.isOpen = false) (other : event.asked? = none) : Idle l event

/-- All that one event can do. -/
inductive Advances (json : Node.Reader) (h : History) : Event → History → Prop
  | idle {event : Event} (idle : Idle h.link event) : Advances json h event h
  | refused {id : Nat} {written : Bool} (shut : h.link.isOpen = false) :
      Advances json h (.submit id written)
        { h with asked := h.asked ++ [id], told := h.told ++ [⟨id, .error .disconnected⟩] }
  | submitted {id : Nat} (on : h.link.isOpen = true) :
      Advances json h (.submit id true)
        { h with
          link := { h.link with waiting := id :: h.link.waiting.filter (· != id), held := [] }
          asked := h.asked ++ [id], lost := h.lost ++ h.link.held }
  | unwritten {id : Nat} (on : h.link.isOpen = true) :
      Advances json h (.submit id false)
        { h with
          link := { h.link with waiting := [], held := [], isOpen := false }
          asked := h.asked ++ [id], lost := h.lost ++ h.link.held
          told := h.told ++ (⟨id, .error .disconnected⟩ :: h.link.close.2) }
  | output {bytes : List UInt8} (on : h.link.isOpen = true) (goesOn : h.link.stopped = false) :
      Advances json h (.output bytes)
        { h with link := { h.link with ahead := h.link.ahead ++ bytes }, sent := h.sent ++ bytes }
  | stop (on : h.link.isOpen = true) :
      Advances json h .stop { h with link := { h.link with stopped := true } }
  | held (on : h.link.isOpen = true) (found : h.link.line? = none) (part : newline ∉ h.link.ahead)
      (goesOn : h.link.stopped = false) :
      Advances json h .read
        { h with link := { h.link with ahead := [], held := h.link.held ++ h.link.ahead } }
  | line {line rest : List UInt8} {ended : Bool} {next : Link × List Delivery}
      (on : h.link.isOpen = true) (found : h.link.line? = some (line, ended))
      (split : h.link.held ++ h.link.ahead =
        line ++ (if ended then [newline] else []) ++ rest)
      (one : newline ∉ h.link.held → newline ∉ line)
      (receives : Link.Receives json { h.link with ahead := rest, held := [] }
        ⟨h.lost, line, ended⟩ next) :
      Advances json h .read
        { h with
          link := next.1, told := h.told ++ next.2, lost := []
          taken := h.taken ++ [⟨h.lost, line, ended⟩] }
  | exhausted (on : h.link.isOpen = true) (found : h.link.line? = none) (stopped : h.link.stopped = true)
      (nothing : h.link.held ++ h.link.ahead = []) :
      Advances json h .read { h with link := h.link.close.1, told := h.told ++ h.link.close.2 }
  | hungUp (on : h.link.isOpen = true) :
      Advances json h .hangUp { h with link := h.link.close.1, told := h.told ++ h.link.close.2 }

/-- Once the link is closed, a request is refused and nothing else matters. -/
theorem advances_closed {h : History} (shut : h.link.isOpen = false) (event : Event) :
    h.Advances json event (h.next json event) := by
  have off : ¬ h.link.isOpen = true := by rw [shut]; exact Bool.false_ne_true
  cases event with
  | submit id written =>
      simp only [next, Link.step, if_neg off]
      exact .refused shut
  | abandon _ | output _ | stop | read | hangUp =>
      simp only [next, Link.step, if_neg off, Event.asked?, Option.toList_none, List.append_nil]
      exact .idle (.closed shut rfl)

/-- While the link is open, reading takes in a line, holds on to a part of one, or finds that there
is nothing left. -/
theorem advances_read {h : History} (on : h.link.isOpen = true) : h.Advances json .read (h.next json .read) := by
  simp only [next, Link.step, if_pos on, Link.read, Event.asked?, Option.toList_none, List.append_nil]
  cases found : splitLine h.link.ahead with
  | some parts =>
      obtain ⟨split, plain⟩ := splitLine_eq_some found
      have ends : h.link.line? = some (h.link.held ++ parts.1, true) := by rw [Link.line?, found]
      rw [ends]
      refine .line on ends ?_ ?_ (Link.receives json _ ⟨h.lost, h.link.held ++ parts.1, true⟩)
      · rw [split, if_pos rfl, List.append_assoc, List.append_assoc]
        rfl
      · exact fun held mem => (List.mem_append.mp mem).elim held plain
  | none =>
      have part := splitLine_eq_none found
      dsimp only
      by_cases stopped : h.link.stopped = true
      · have off : ¬ (!h.link.stopped) = true := by simp [stopped]
        rw [if_neg off]
        by_cases nothing : (h.link.held ++ h.link.ahead).isEmpty = true
        · have nowhere := Link.line?_eq_none (List.isEmpty_iff.mp nothing)
          rw [if_pos nothing, nowhere]
          exact .exhausted on nowhere stopped (List.isEmpty_iff.mp nothing)
        · have ends : h.link.line? = some (h.link.held ++ h.link.ahead, false) := by
            simp only [Link.line?, found, stopped, nothing, Bool.not_false, Bool.and_true, if_true]
          rw [if_neg nothing, ends]
          refine .line on ends ?_ ?_ (Link.receives json _ ⟨h.lost, h.link.held ++ h.link.ahead, false⟩)
          · rw [if_neg Bool.false_ne_true, List.append_nil, List.append_nil]
          · exact fun held mem => (List.mem_append.mp mem).elim held part
      · have goesOn : h.link.stopped = false := Bool.not_eq_true _ ▸ stopped
        have unfinished : h.link.line? = none := by simp [Link.line?, found, goesOn]
        rw [if_pos (by rw [goesOn]; rfl), unfinished, List.append_nil]
        exact .held on unfinished part goesOn

theorem advances (h : History) (event : Event) : h.Advances json event (h.next json event) := by
  cases on : h.link.isOpen with
  | false => exact advances_closed json on event
  | true =>
      cases event with
      | submit id written =>
          simp only [next, Link.step, if_pos on]
          cases written with
          | true =>
              rw [show h.link.submit id true = (_, []) from rfl, List.append_nil]
              exact .submitted on
          | false => exact .unwritten on
      | abandon id =>
          simp only [next, Link.step, if_pos on, Event.asked?, Option.toList_none, List.append_nil]
          exact .idle (.abandon id)
      | output bytes =>
          simp only [next, Link.step, if_pos on, Event.asked?, Option.toList_none, List.append_nil]
          split
          case isTrue stopped => exact .idle (.late bytes stopped)
          case isFalse goesOn => exact .output on (Bool.not_eq_true _ ▸ goesOn)
      | stop =>
          simp only [next, Link.step, if_pos on, Event.asked?, Option.toList_none, List.append_nil]
          exact .stop on
      | read => exact advances_read json on
      | hangUp =>
          simp only [next, Link.step, if_pos on, Event.asked?, Option.toList_none, List.append_nil]
          exact .hungUp on

@[simp] theorem runs_nil (h : History) : h.runs json [] = h := rfl

@[simp] theorem runs_cons (h : History) (event : Event) (events : List Event) :
    h.runs json (event :: events) = (h.next json event).runs json events := rfl

theorem of_append (before after : List Event) : of json (before ++ after) = (of json before).runs json after :=
  List.foldl_append

theorem of_concat (events : List Event) (event : Event) :
    of json (events ++ [event]) = (of json events).next json event := by
  rw [of_append, runs_cons, runs_nil]

/-- What every event of a run preserves holds after it. -/
theorem runs_keeps {P : History → Prop} {events : List Event}
    (step : ∀ event ∈ events, ∀ h, P h → P (h.next json event)) {h : History} (first : P h) :
    P (h.runs json events) := by
  induction events generalizing h with
  | nil => exact first
  | cons event events ih =>
      exact ih (fun e mem => step e (List.mem_cons_of_mem _ mem))
        (step event List.mem_cons_self h first)

theorem next_asked (h : History) (event : Event) :
    (h.next json event).asked = h.asked ++ event.asked?.toList := by
  simp only [next]
  repeat' split
  all_goals rfl

theorem runs_asked (h : History) (events : List Event) :
    (h.runs json events).asked = h.asked ++ events.filterMap Event.asked? := by
  induction events generalizing h with
  | nil => exact (List.append_nil _).symm
  | cons event events ih =>
      rw [runs_cons, ih, next_asked, List.append_assoc]
      cases event <;> rfl

/-- Who waits, waits once and has asked, nobody waits for a closed link, and nobody is told without
having asked. -/
structure Tidy (h : History) : Prop where
  distinct : h.link.waiting.Nodup
  closed : h.link.isOpen = false → h.link.waiting = []
  waits : ∀ id ∈ h.link.waiting, id ∈ h.asked
  told : ∀ delivery ∈ h.told, delivery.id ∈ h.asked

theorem Tidy.start : start.Tidy := ⟨List.nodup_nil, fun _ => rfl, nofun, nofun⟩

theorem Tidy.disconnects {h : History} (tidy : h.Tidy) :
    ∀ delivery ∈ h.link.close.2, delivery.id ∈ h.asked := by
  intro delivery mem
  obtain ⟨id, waits, rfl⟩ := List.mem_map.mp mem
  exact tidy.waits id waits

/-- Telling more callers that have asked, while fewer wait. -/
theorem Tidy.settle {h : History} (tidy : h.Tidy) {link : Link} {more : List Delivery}
    {lost : List UInt8} {taken : List Intake} (fewer : link.waiting.Sublist h.link.waiting)
    (closed : link.isOpen = false → link.waiting = [])
    (asked : ∀ delivery ∈ more, delivery.id ∈ h.asked) :
    ({ h with link, told := h.told ++ more, lost, taken } : History).Tidy where
  distinct := tidy.distinct.sublist fewer
  closed := closed
  waits id mem := tidy.waits id (fewer.subset mem)
  told delivery mem := (List.mem_append.mp mem).elim (tidy.told delivery) (asked delivery)

theorem Advances.tidy {json : Node.Reader} {h h' : History} {event : Event}
    (advances : h.Advances json event h')
    (tidy : h.Tidy) : h'.Tidy := by
  cases advances with
  | idle => exact tidy
  | refused shut =>
      refine ⟨tidy.distinct, tidy.closed, fun id mem => List.mem_append_left _ (tidy.waits id mem), ?_⟩
      intro delivery mem
      obtain old | rfl := (List.mem_append.mp mem).imp_right List.mem_singleton.mp
      · exact List.mem_append_left _ (tidy.told delivery old)
      · exact List.mem_append_right _ List.mem_cons_self
  | submitted on =>
      refine ⟨?_, fun closed => absurd (on.symm.trans closed) nofun, ?_,
        fun delivery mem => List.mem_append_left _ (tidy.told delivery mem)⟩
      · exact List.nodup_cons.mpr ⟨by simp, tidy.distinct.filter _⟩
      · intro id mem
        obtain rfl | old := List.mem_cons.mp mem
        · exact List.mem_append_right _ List.mem_cons_self
        · exact List.mem_append_left _ (tidy.waits id (List.mem_filter.mp old).1)
  | unwritten on =>
      refine ⟨List.nodup_nil, fun _ => rfl, nofun, ?_⟩
      intro delivery mem
      obtain old | rfl | other := (List.mem_append.mp mem).imp_right List.mem_cons.mp
      · exact List.mem_append_left _ (tidy.told delivery old)
      · exact List.mem_append_right _ List.mem_cons_self
      · exact List.mem_append_left _ (tidy.disconnects delivery other)
  | output | stop | held => exact ⟨tidy.distinct, tidy.closed, tidy.waits, tidy.told⟩
  | line on found split one receives =>
      cases receives with
      | garbled => exact tidy.settle (List.nil_sublist _) (fun _ => rfl) tidy.disconnects
      | passedOver => exact tidy.settle (List.Sublist.refl _) tidy.closed nofun
      | answered read waits =>
          refine tidy.settle List.filter_sublist (fun closed => absurd (on.symm.trans closed) nofun) ?_
          intro delivery mem
          rw [List.mem_singleton.mp mem]
          exact tidy.waits _ waits
  | exhausted | hungUp =>
      exact tidy.settle (List.nil_sublist _) (fun _ => rfl) tidy.disconnects

theorem of_tidy (events : List Event) : (of json events).Tidy :=
  runs_keeps json (fun event _ h tidy => (h.advances json event).tidy tidy) Tidy.start

/-- What the server has written is the lines taken in, one after the other, then what is lost of the
line under way, what is held of it, and what is not read yet. -/
structure Tiled (h : History) : Prop where
  sent : h.sent = h.taken.flatMap Intake.bytes ++ h.lost ++ h.link.held ++ h.link.ahead
  one : newline ∉ h.lost ++ h.link.held
  lines : ∀ t ∈ h.taken, t.IsLine

theorem Tiled.start : start.Tiled := ⟨rfl, List.not_mem_nil, nofun⟩

/-- A request takes what is held of a line away from it. -/
theorem Tiled.interrupt {h : History} (tiled : h.Tiled) {asked : List Nat} {told : List Delivery}
    {waiting : List Nat} {isOpen : Bool} :
    ({ h with
      link := { h.link with waiting, held := [], isOpen }
      asked, told, lost := h.lost ++ h.link.held } : History).Tiled where
  sent := by rw [tiled.sent, List.append_nil, List.append_assoc _ h.lost]
  one := by rw [List.append_nil]; exact tiled.one
  lines := tiled.lines

theorem Advances.tiled {json : Node.Reader} {h h' : History} {event : Event}
    (advances : h.Advances json event h')
    (tiled : h.Tiled) : h'.Tiled := by
  cases advances with
  | idle => exact tiled
  | refused | stop | exhausted | hungUp => exact ⟨tiled.sent, tiled.one, tiled.lines⟩
  | submitted | unwritten => exact tiled.interrupt
  | output => exact ⟨by rw [tiled.sent, List.append_assoc], tiled.one, tiled.lines⟩
  | held on found part =>
      refine ⟨by rw [tiled.sent, List.append_nil, List.append_assoc _ h.link.held], ?_, tiled.lines⟩
      rw [← List.append_assoc]
      exact fun mem => (List.mem_append.mp mem).elim tiled.one part
  | line on found split one receives =>
      obtain ⟨held, ahead⟩ := receives.reader
      obtain ⟨lost, kept⟩ := not_or.mp (mt List.mem_append.mpr tiled.one)
      refine ⟨?_, ?_, ?_⟩
      · rw [held, ahead, tiled.sent, List.append_assoc _ h.link.held, split]
        simp [Intake.bytes, List.flatMap_append]
      · rw [held]
        exact List.not_mem_nil
      · intro t mem
        obtain old | rfl := (List.mem_append.mp mem).imp_right List.mem_singleton.mp
        · exact tiled.lines t old
        · exact fun mem => (List.mem_append.mp mem).elim lost (one kept)

theorem of_tiled (events : List Event) : (of json events).Tiled :=
  runs_keeps json (fun event _ h tiled => (h.advances json event).tiled tiled) Tiled.start

end History
end Journey.Rpc
