import Journey.Node.Json
import Journey.Proofs.Rpc.History
import Mathlib.Data.List.Induction
import Mathlib.Data.List.Perm.Basic

/-!
How a request on a shared link is answered: by the first response to it among the lines taken in since
it came up, or by the closing of the link, and never twice. Every line of the server is taken in whole,
except that a request which comes up in the middle of a line takes away what had been read of it.
-/

namespace Journey.Rpc

/-- The errors that the codes of faults stand for. -/
def Fault.kinds : List (Int × (String → BrowserError)) := [
  (-32001, .timeout), (-32002, .blocked), (-32003, .stale), (-32004, .notInteractable),
  (-32005, .navigation), (-32601, .unsupported)]

/-- What a response means: the error that its fault stands for if it has one, with the code in the text of
the error if that stands for none, or else its result, which is null if there is none. -/
def Response.meant (r : Response) : Except BrowserError Value :=
  match r.fault, r.result with
  | some fault, _ =>
      match Fault.kinds.lookup fault.code with
      | some kind => .error (kind fault.message)
      | none => .error (.server s!"[{fault.code}] {fault.message}")
  | none, some value => .ok value
  | none, none => .ok .null

theorem Fault.browserError_eq (f : Fault) : f.browserError =
    match kinds.lookup f.code with
    | some kind => kind f.message
    | none => .server s!"[{f.code}] {f.message}" := by
  rw [browserError]
  split
  case h_1 coded | h_2 coded | h_3 coded | h_4 coded | h_5 coded | h_6 coded =>
    rw [coded]
    rfl
  case h_7 =>
    have unlisted : kinds.lookup f.code = none := by
      rw [List.lookup_eq_none_iff]
      simp_all [kinds]
    rw [unlisted]

theorem Response.outcome_eq (r : Response) : r.outcome = r.meant := by
  obtain ⟨id, result, fault⟩ := r
  cases fault with
  | none => cases result <;> rfl
  | some fault =>
      simp only [outcome, meant, fault.browserError_eq]
      split <;> rfl

variable (json : Node.Reader)

/-- The response to a request, if the line is one. -/
def Intake.responseTo? (id : Nat) (t : Intake) : Option Response :=
  (t.response? json).filter (·.id == id)

variable {json}

theorem Intake.responseTo?_eq_none {id : Nat} {t : Intake}
    (other : ∀ response, t.response? json = some response → response.id ≠ id) :
    t.responseTo? json id = none :=
  Option.filter_eq_none_iff.mpr fun response read => by simpa using other response read

theorem Intake.responseTo?_eq_some {t : Intake} {response : Response}
    (read : t.response? json = some response) : t.responseTo? json response.id = some response := by
  rw [responseTo?, read, Option.filter_some, if_pos (beq_self_eq_true response.id)]

namespace History

variable (json) in
/-- The first response to a request among the lines taken in since then. -/
def found? (h : History) (since id : Nat) : Option Response :=
  (h.taken.drop since).findSome? (Intake.responseTo? json id)

variable (json) in
/-- All that a request is to be told. -/
def answer (h : History) (since id : Nat) : List Delivery :=
  match h.found? json since id with
  | some response => [⟨id, response.meant⟩]
  | none => if h.link.isOpen then [] else [⟨id, .error .disconnected⟩]

def toldTo (h : History) (id : Nat) : List Delivery := h.told.filter (·.id == id)

theorem answer_eq_nil_iff {h : History} (on : h.link.isOpen = true) {since id : Nat} :
    h.answer json since id = [] ↔ h.found? json since id = none := by
  rw [answer]
  cases h.found? json since id <;> simp [on]

/-- Closing tells everyone who waits, once. -/
theorem Tidy.closing {h : History} (tidy : h.Tidy) (id : Nat) :
    h.link.close.2.filter (·.id == id) =
      if id ∈ h.link.waiting then [⟨id, .error .disconnected⟩] else [] := by
  have only : h.link.waiting.filter (· == id) = if id ∈ h.link.waiting then [id] else [] := by
    rw [List.filter_beq, tidy.distinct.count]
    split <;> rfl
  rw [Link.close, List.filter_map]
  refine (congrArg _ only).trans ?_
  split <;> rfl

/-- A request that came up after so many lines had been taken in has been told what it is to be told,
and waits if that is nothing. -/
structure Answered (json : Node.Reader) (h : History) (since id : Nat) : Prop where
  told : h.toldTo id = h.answer json since id
  waits : id ∈ h.link.waiting ↔ h.answer json since id = []
  recent : since ≤ h.taken.length

namespace Answered

variable {h : History} {since id : Nat}

theorem waits_iff (answered : h.Answered json since id) (on : h.link.isOpen = true) :
    id ∈ h.link.waiting ↔ h.found? json since id = none :=
  answered.waits.trans (answer_eq_nil_iff on)

/-- It has been told the one thing it is to be told. -/
theorem settled (delivery : Delivery) (answer : h.answer json since id = [delivery])
    (told : h.toldTo id = [delivery]) (gone : id ∉ h.link.waiting) (recent : since ≤ h.taken.length) :
    h.Answered json since id where
  told := told.trans answer.symm
  waits := iff_of_false gone (by rw [answer]; exact List.cons_ne_nil delivery [])
  recent := recent

/-- The next line answers it, unless an earlier one has. -/
theorem found_line (answered : h.Answered json since id) (t : Intake) {h' : History}
    (taken : h'.taken = h.taken ++ [t]) :
    h'.found? json since id = (h.found? json since id).or (t.responseTo? json id) := by
  rw [found?, taken, List.drop_append_of_le_length answered.recent, List.findSome?_append,
    List.findSome?_singleton]
  rfl

/-- Nothing has happened to it. -/
theorem stays (answered : h.Answered json since id) {h' : History}
    (told : h'.toldTo id = h.toldTo id) (waits : id ∈ h'.link.waiting ↔ id ∈ h.link.waiting)
    (found : h'.found? json since id = h.found? json since id) (isOpen : h'.link.isOpen = h.link.isOpen)
    (longer : h.taken.length ≤ h'.taken.length) : h'.Answered json since id := by
  have same : h'.answer json since id = h.answer json since id := by rw [answer, answer, found, isOpen]
  exact ⟨by rw [told, same, answered.told], by rw [waits, same, answered.waits],
    Nat.le_trans answered.recent longer⟩

/-- The link is closed, with no response to it in between. -/
theorem close (answered : h.Answered json since id) (tidy : h.Tidy) (on : h.link.isOpen = true)
    {h' : History} (told : h'.toldTo id = h.toldTo id ++ h.link.close.2.filter (·.id == id))
    (nobody : h'.link.waiting = []) (closed : h'.link.isOpen = false)
    (found : h'.found? json since id = h.found? json since id) (longer : h.taken.length ≤ h'.taken.length) :
    h'.Answered json since id := by
  have waits := answered.waits_iff on
  have before := answered.told
  have gone : id ∉ h'.link.waiting := by rw [nobody]; exact List.not_mem_nil
  have recent := Nat.le_trans answered.recent longer
  cases read : h.found? json since id with
  | some response =>
      have idle : id ∉ h.link.waiting := by rw [waits, read]; exact nofun
      refine settled ⟨id, response.meant⟩ ?_ ?_ gone recent
      · rw [answer, found, read]
      · rw [told, tidy.closing, if_neg idle, before, answer, read, List.append_nil]
  | none =>
      refine settled ⟨id, .error .disconnected⟩ ?_ ?_ gone recent
      · rw [answer, found, read, closed]
        rfl
      · rw [told, tidy.closing, if_pos (waits.mpr read), before, (answer_eq_nil_iff on).mpr read,
          List.nil_append]

end Answered

theorem toldTo_append {h h' : History} {more : List Delivery} (told : h'.told = h.told ++ more)
    (id : Nat) : h'.toldTo id = h.toldTo id ++ more.filter (·.id == id) := by
  rw [toldTo, told, List.filter_append]
  rfl

/-- Nobody else is told what one request is told. -/
theorem toldTo_other {h h' : History} {delivery : Delivery} (told : h'.told = h.told ++ [delivery])
    {id : Nat} (other : delivery.id ≠ id) : h'.toldTo id = h.toldTo id := by
  rw [toldTo_append told, List.filter_cons, beq_false_of_ne other]
  exact List.append_nil _

/-- Taking in a line. -/
theorem Answered.line {h : History} {since id : Nat} (answered : h.Answered json since id)
    (tidy : h.Tidy) (on : h.link.isOpen = true) {t : Intake} {ahead held lost : List UInt8}
    {next : Link × List Delivery} (receives : Link.Receives json { h.link with ahead, held } t next) :
    ({ h with link := next.1, told := h.told ++ next.2, lost, taken := h.taken ++ [t] } : History).Answered
      json since id := by
  have longer : h.taken.length ≤ (h.taken ++ [t]).length := by simp
  have waits := answered.waits_iff on
  cases receives with
  | garbled no =>
      have silent : t.responseTo? json id = none := by rw [Intake.responseTo?, Intake.response?, no]; rfl
      refine answered.close tidy on (toldTo_append rfl id) rfl rfl ?_ longer
      rw [answered.found_line t rfl, silent, Option.or_none]
  | passedOver shown nobody =>
      refine answered.stays (List.append_nil _ ▸ rfl) Iff.rfl ?_ rfl longer
      rw [answered.found_line t rfl]
      cases read : h.found? json since id with
      | some response => rfl
      | none =>
          refine Intake.responseTo?_eq_none fun response answers same => ?_
          exact nobody response answers (same ▸ waits.mpr read)
  | @answered response read asked =>
      by_cases mine : response.id = id
      · subst mine
        have unanswered := waits.mp asked
        rw [response.outcome_eq]
        refine Answered.settled ⟨response.id, response.meant⟩ ?_ ?_ (by simp)
          (Nat.le_trans answered.recent longer)
        · rw [answer, answered.found_line t rfl, unanswered, Option.none_or,
            Intake.responseTo?_eq_some read]
        · rw [toldTo_append rfl, answered.told, (answer_eq_nil_iff on).mpr unanswered]
          simp
      · have silent : t.responseTo? json id = none := Intake.responseTo?_eq_none fun other answers same =>
          mine (Option.some.inj (read.symm.trans answers) ▸ same)
        refine answered.stays (toldTo_other rfl mine) ?_ ?_ rfl longer
        · simpa using fun _ => Ne.symm mine
        · rw [answered.found_line t rfl, silent, Option.or_none]

theorem Advances.answered {h h' : History} {event : Event} (advances : h.Advances json event h')
    (tidy : h.Tidy) {since id : Nat} (other : event.asked? ≠ some id)
    (answered : h.Answered json since id) : h'.Answered json since id := by
  cases advances with
  | idle => exact answered
  | refused =>
      have others := fun same => other (congrArg some same)
      exact answered.stays (toldTo_other rfl others) Iff.rfl rfl rfl (Nat.le_refl _)
  | submitted =>
      have others : id ≠ _ := fun same => other (congrArg some same.symm)
      exact answered.stays rfl (by simp [others]) rfl rfl (Nat.le_refl _)
  | unwritten on =>
      have others := fun same => other (congrArg some same)
      refine answered.close tidy on ?_ rfl rfl rfl (Nat.le_refl _)
      rw [toldTo_append rfl, List.filter_cons, if_neg (by simpa using others)]
  | output | stop | held => exact answered.stays rfl Iff.rfl rfl rfl (Nat.le_refl _)
  | line on found split one receives => exact answered.line tidy on receives
  | exhausted on found | hungUp on =>
      exact answered.close tidy on (toldTo_append rfl id) rfl rfl rfl (Nat.le_refl _)

theorem Tidy.toldTo_new {h : History} (tidy : h.Tidy) {id : Nat} (new : id ∉ h.asked) :
    h.toldTo id = [] :=
  List.filter_eq_nil_iff.mpr fun delivery mem same =>
    new (eq_of_beq same ▸ tidy.told delivery mem)

variable (json) in
theorem answer_new (h : History) (id : Nat) :
    h.answer json h.taken.length id = if h.link.isOpen then [] else [⟨id, .error .disconnected⟩] := by
  rw [answer, found?, List.drop_length]
  rfl

/-- A request that comes up is refused, or waits with no line taken in since. -/
theorem Advances.asks {h h' : History} {id : Nat} {written : Bool}
    (advances : h.Advances json (.submit id written) h') (tidy : h.Tidy) (new : id ∉ h.asked) :
    h'.Answered json h'.taken.length id := by
  have idle : id ∉ h.link.waiting := mt (tidy.waits id) new
  have silent := tidy.toldTo_new new
  have answer := answer_new json h' id
  have refused (told : h'.toldTo id = [⟨id, .error .disconnected⟩]) (closed : h'.link.isOpen = false)
      (gone : id ∉ h'.link.waiting) : h'.Answered json h'.taken.length id := by
    rw [closed, if_neg Bool.false_ne_true] at answer
    exact .settled _ answer told gone (Nat.le_refl _)
  cases advances with
  | idle idle => cases idle with | closed shut other => cases other
  | refused shut => exact refused (by rw [toldTo_append (h := h) rfl, silent]; simp) shut idle
  | submitted on =>
      rw [if_pos on] at answer
      exact ⟨silent.trans answer.symm, iff_of_true List.mem_cons_self answer, Nat.le_refl _⟩
  | unwritten on =>
      refine refused ?_ rfl List.not_mem_nil
      rw [toldTo_append (h := h) rfl, silent, List.filter_cons, tidy.closing, if_neg idle]
      simp

/-- From when a request has come up, no other request having its id, it is told all that it is to be
told. -/
theorem runs_answered {h : History} (tidy : h.Tidy) {since id : Nat}
    (answered : h.Answered json since id) {events : List Event} (others : id ∉ events.filterMap Event.asked?) :
    (h.runs json events).Answered json since id := by
  have steps : ∀ event ∈ events, ∀ h : History, h.Tidy ∧ h.Answered json since id →
      (h.next json event).Tidy ∧ (h.next json event).Answered json since id := by
    rintro event mem h ⟨tidy, answered⟩
    have other : event.asked? ≠ some id := fun asked =>
      others (List.mem_filterMap.mpr ⟨event, mem, asked⟩)
    exact ⟨(h.advances json event).tidy tidy, (h.advances json event).answered tidy other answered⟩
  exact (runs_keeps json steps ⟨tidy, answered⟩).2

/-- A request came up when part of the line after so many others was held. -/
def Disturbed (json : Node.Reader) (events : List Event) (i : Nat) : Prop :=
  ∃ before id written after, events = before ++ .submit id written :: after ∧
    (of json before).link.isOpen = true ∧ (of json before).link.held ≠ [] ∧ (of json before).taken.length = i

theorem Disturbed.more {events : List Event} {i : Nat} (more : List Event) :
    Disturbed json events i → Disturbed json (events ++ more) i
  | ⟨before, id, written, after, split, state⟩ =>
      ⟨before, id, written, after ++ more, by rw [split, List.append_assoc]; rfl, state⟩

/-- What is lost of a line, and of the one under way, was lost to a request. -/
structure Blamed (json : Node.Reader) (events : List Event) (h : History) : Prop where
  lost : h.lost ≠ [] → Disturbed json events h.taken.length
  lines : ∀ i t, h.taken[i]? = some t → t.lost ≠ [] → Disturbed json events i

theorem Blamed.more {events : List Event} {h : History} (blamed : Blamed json events h)
    (more : List Event) : Blamed json (events ++ more) h :=
  ⟨fun some => (blamed.lost some).more more, fun i t at? some => (blamed.lines i t at? some).more more⟩

/-- A request that comes up takes what is held, which may be nothing. -/
theorem Blamed.interrupt {events : List Event} (blamed : Blamed json events (of json events)) (id : Nat)
    (written : Bool) (on : (of json events).link.isOpen = true)
    (some : (of json events).lost ++ (of json events).link.held ≠ []) :
    Disturbed json (events ++ [.submit id written]) (of json events).taken.length := by
  by_cases held : (of json events).link.held = []
  · exact (blamed.lost (by simpa [held] using some)).more _
  · exact ⟨events, id, written, [], rfl, on, held, rfl⟩

theorem Advances.blamed {events : List Event} {event : Event} {h' : History}
    (advances : (of json events).Advances json event h') (blamed : Blamed json events (of json events)) :
    Blamed json (events ++ [event]) h' := by
  have before := blamed.more [event]
  cases advances with
  | idle => exact before
  | refused | output | stop | held | exhausted | hungUp => exact ⟨before.lost, before.lines⟩
  | submitted on | unwritten on => exact ⟨blamed.interrupt _ _ on, before.lines⟩
  | line on found split one receives =>
      refine ⟨fun some => absurd rfl some, fun i t at? some => ?_⟩
      obtain old | new := Nat.lt_or_ge i (of json events).taken.length
      · exact before.lines i t (by rwa [List.getElem?_append_left old] at at?) some
      · rw [List.getElem?_append_right new] at at?
        obtain ⟨last, rfl⟩ := List.getElem?_eq_some_iff.mp at?
        obtain rfl : i = (of json events).taken.length := by simp at last; omega
        exact before.lost (by simpa using some)

variable (json) in
theorem of_blamed (events : List Event) : Blamed json events (of json events) := by
  induction events using List.reverseRecOn with
  | nil => exact ⟨fun some => absurd rfl some, nofun⟩
  | append_singleton events event ih =>
      have advances := (of json events).advances json event
      rw [of_concat]
      exact advances.blamed ih

/-- What closes an open link: a request that cannot be written, a line that is no text, the end of
what the server wrote, and the end of the callers. -/
inductive Closes (h : History) : Event → Prop
  | unwritten (id : Nat) : Closes h (.submit id false)
  | garbled {line : List UInt8} {ended : Bool} (found : h.link.line? = some (line, ended))
      (no : textOf? line = none) : Closes h .read
  | exhausted (stopped : h.link.stopped = true) (nothing : h.link.held ++ h.link.ahead = []) :
      Closes h .read
  | hungUp : Closes h .hangUp

theorem Advances.closes_iff {h h' : History} {event : Event} (advances : h.Advances json event h')
    (on : h.link.isOpen = true) : h'.link.isOpen = false ↔ h.Closes event := by
  cases advances with
  | idle idle =>
      refine iff_of_false (by simp [on]) ?_
      cases idle with
      | abandon | late => exact nofun
      | closed shut => exact absurd (on.symm.trans shut) nofun
  | refused shut => exact absurd (on.symm.trans shut) nofun
  | submitted | output | stop => exact iff_of_false (by simp [on]) nofun
  | unwritten => exact iff_of_true rfl (.unwritten _)
  | exhausted on found stopped nothing => exact iff_of_true rfl (.exhausted stopped nothing)
  | hungUp => exact iff_of_true rfl .hungUp
  | held on unfinished part goesOn =>
      refine iff_of_false (by simp [on]) fun closes => ?_
      cases closes with
      | garbled found => exact absurd (unfinished.symm.trans found) nofun
      | exhausted stopped => exact absurd (goesOn.symm.trans stopped) nofun
  | @line line _ _ _ on found split one receives =>
      have garbled : h.Closes .read → textOf? line = none := by
        rintro (_ | ⟨takes, no⟩ | ⟨stopped, nothing⟩)
        · obtain ⟨rfl, rfl⟩ := Prod.mk.inj (Option.some.inj (found.symm.trans takes))
          exact no
        · exact absurd (found.symm.trans (Link.line?_eq_none nothing)) nofun
      cases receives with
      | garbled no => exact iff_of_true rfl (.garbled found no)
      | passedOver shown =>
          exact iff_of_false (by simp [on]) fun closes => absurd (shown.symm.trans (garbled closes)) nofun
      | answered read =>
          refine iff_of_false (by simp [on]) fun closes => ?_
          rw [Intake.response?, garbled closes] at read
          cases read

/-- Reading gets past a line break. -/
theorem Advances.reads {h h' : History} (advances : h.Advances json .read h') (on : h.link.isOpen = true)
    (whole : newline ∈ h.link.ahead) : h'.taken.length = h.taken.length + 1 := by
  cases advances with
  | idle idle => cases idle with | closed shut => exact absurd (on.symm.trans shut) nofun
  | held _ _ part => exact absurd whole part
  | line => simp
  | exhausted _ _ _ nothing =>
      rw [(List.append_eq_nil_iff.mp nothing).2] at whole
      exact absurd whole List.not_mem_nil

end History

/-- What a link does for the requests that share it, whatever comes up in whatever order. -/
structure Link.Faithful (json : Node.Reader) (events : List Event) : Prop where
  /-- The history is that of the link. -/
  ran : start.run json events = ((History.of json events).link, (History.of json events).told)
  /-- From when it comes up, a request is told the first response to it that is taken in. Without one
  it is told nothing while the link is open and, once, that the link is closed after that. -/
  answered : ∀ before id written after, events = before ++ .submit id written :: after →
    (History.of json events).toldTo id = (History.of json events).answer json
      (History.of json (before ++ [.submit id written])).taken.length id
  /-- Nobody else is told anything. -/
  asked : ∀ delivery ∈ (History.of json events).told, delivery.id ∈ events.filterMap Event.asked?
  /-- Nothing that the server has written is left out, and what is taken in are its lines. -/
  tiled : (History.of json events).Tiled
  /-- A line is taken in whole, unless a request came up when a part of it was held. -/
  whole : ∀ i t, (History.of json events).taken[i]? = some t → t.lost ≠ [] →
    History.Disturbed json events i
  /-- While the link is open, a line that has its line break is taken in by the next read. -/
  reads : ∀ before after, events = before ++ .read :: after →
    (History.of json before).link.isOpen = true → newline ∈ (History.of json before).link.ahead →
    (History.of json (before ++ [.read])).taken.length = (History.of json before).taken.length + 1
  /-- The link closes for the reasons there are, and for no other. -/
  closes : ∀ before event after, events = before ++ event :: after →
    (History.of json before).link.isOpen = true →
    ((History.of json (before ++ [event])).link.isOpen = false ↔
      (History.of json before).Closes event)

namespace Callers

/-- The numbers that so many requests are given, from the first one on. -/
def numbers (first : UInt64) (n : Nat) : List Nat :=
  (List.range n).map fun i => (first + .ofNat i).toNat

theorem numbers_succ (first : UInt64) (n : Nat) :
    numbers first (n + 1) = first.toNat :: numbers (first + 1) n := by
  have shift (i : Nat) : first + UInt64.ofNat (i + 1) = first + 1 + UInt64.ofNat i := by
    rw [UInt64.ofNat_add, UInt64.add_assoc, UInt64.add_comm (UInt64.ofNat i)]
    rfl
  simp only [numbers, List.range_succ_eq_map, List.map_cons, List.map_map, Function.comp_def, shift]
  simp

/-- No number is given out twice before all have been. -/
theorem nodup_numbers (first : UInt64) {n : Nat} (few : n ≤ UInt64.size) : (numbers first n).Nodup := by
  rw [numbers, List.Nodup, List.pairwise_map]
  refine List.nodup_range.imp_of_mem fun {i j} hi hj apart same => apart ?_
  have equal := congrArg UInt64.toNat ((UInt64.add_right_inj _).mp (UInt64.toNat.inj same))
  rwa [UInt64.toNat_ofNat_of_lt' (Nat.lt_of_lt_of_le (List.mem_range.mp hi) few),
    UInt64.toNat_ofNat_of_lt' (Nat.lt_of_lt_of_le (List.mem_range.mp hj) few)] at equal

/-- What comes up and what is left are the requests that were made, those made before and those numbered
since. -/
theorem asked_perm (c : Callers) (moves : List Move) :
    ∃ left, ((c.events moves).filterMap Event.asked? ++ left).Perm
      (c.made ++ numbers c.counter (moves.count .make)) := by
  induction moves generalizing c with
  | nil => exact ⟨c.made, by simp [events, numbers]⟩
  | cons move rest ih =>
      obtain ⟨left, perm⟩ := ih (c.step move).1
      refine ⟨left, ?_⟩
      rw [events, List.filterMap_append, List.append_assoc]
      cases move with
      | make =>
          refine perm.trans ?_
          rw [List.count_cons_self, numbers_succ]
          simp [step]
      | submit place written =>
          cases found : c.made[place]? with
          | none => simpa [step, found] using perm
          | some id =>
              obtain ⟨within, rfl⟩ := List.getElem?_eq_some_iff.mp found
              simp only [step, found] at perm ⊢
              refine (perm.cons c.made[place]).trans ?_
              simpa using (List.getElem_cons_eraseIdx_perm within).append_right _
      | other event =>
          rw [List.count_cons_of_ne (by simp)]
          cases event <;> exact perm

/-- No two requests at a link have the same number, as long as numbers are not given out again. -/
theorem nodup_asked (counter : UInt64) {moves : List Move} (few : moves.count .make ≤ UInt64.size) :
    ((events ⟨counter, []⟩ moves).filterMap Event.asked?).Nodup := by
  obtain ⟨left, perm⟩ := asked_perm ⟨counter, []⟩ moves
  exact (List.nodup_append.mp (perm.nodup_iff.mpr (nodup_numbers counter few))).1

end Callers

/-- Requests with numbers of their own that share a link are answered as they should be. -/
theorem Link.faithful_of_nodup (json : Node.Reader) {events : List Event}
    (fresh : (events.filterMap Event.asked?).Nodup) : Faithful json events where
  ran := by
    obtain ⟨link, told⟩ := History.start.runs_link json events
    exact (Prod.ext link (told.trans (List.nil_append _))).symm
  answered := by
    rintro before id written after rfl
    have asks : (Event.submit id written :: after).filterMap Event.asked? =
      id :: after.filterMap Event.asked? := rfl
    rw [List.filterMap_append, asks] at fresh
    obtain ⟨-, later, apart⟩ := List.nodup_append.mp fresh
    have new : id ∉ (History.of json before).asked := by
      rw [History.of, History.runs_asked]
      exact fun mem => apart id mem id List.mem_cons_self rfl
    have tidy := History.of_tidy json before
    have advances := (History.of json before).advances json (.submit id written)
    rw [History.of_append, History.runs_cons, History.of_concat]
    exact (History.runs_answered (advances.tidy tidy) (advances.asks tidy new)
      (List.nodup_cons.mp later).1).told
  asked := by
    have told := (History.of_tidy json events).told
    rw [History.of, History.runs_asked] at told
    exact told
  tiled := History.of_tiled json events
  whole := (History.of_blamed json events).lines
  reads before _ _ on whole := by
    rw [History.of_concat]
    exact ((History.of json before).advances json .read).reads on whole
  closes before event _ _ on := by
    rw [History.of_concat]
    exact ((History.of json before).advances json event).closes_iff on

/-- The requests of callers that share a link are answered at most once, each by a response to itself or
by the closing of the link, in whatever order they come up and whatever else happens. Of the responses
that are read while the link is open, none is passed over but one in a line of which a part was lost to
another request, or that is none to the reader. -/
theorem Link.run_faithful (json : Node.Reader) (counter : UInt64) (moves : List Move)
    (few : moves.count .make ≤ UInt64.size) : Faithful json (Callers.events ⟨counter, []⟩ moves) :=
  faithful_of_nodup json (Callers.nodup_asked counter few)

namespace Link

/-- The line of a response that says nothing but that it is one. -/
def acknowledgement (id : Nat) : String :=
  "\x7b\"jsonrpc\":\"2.0\",\"id\":" ++ toString id ++ "\x7d"

/-- Two requests come up in the other order than they are made and are answered crosswise, the second
response arriving in two parts when its caller has given up, and the server stops. -/
def crossing : List Move := [
  .make, .make, .submit 1 true, .submit 0 true,
  .other (.output (bytesOf (acknowledgement 2) ++ newline :: (bytesOf (acknowledgement 1)).take 9)),
  .other .read, .other .read, .other (.abandon 1),
  .other (.output ((bytesOf (acknowledgement 1)).drop 9 ++ [newline])), .other .read, .other .stop,
  .other .read]

theorem run_crossing_faithful :
    crossing.count .make ≤ UInt64.size ∧ Faithful Node.Json.parse? (Callers.events ⟨1, []⟩ crossing) ∧
      (start.run Node.Json.parse? (Callers.events ⟨1, []⟩ crossing)).2.map Delivery.id = [2, 1] :=
  have few : crossing.count .make ≤ UInt64.size := by decide
  ⟨few, run_faithful Node.Json.parse? 1 crossing few, by decide +kernel⟩

/-- A request comes up when the response to another has been read up to its ninth byte. -/
def interrupted : List Move := [
  .make, .submit 0 true, .other (.output ((bytesOf (acknowledgement 1)).take 9)), .other .read,
  .make, .submit 0 true, .other (.output ((bytesOf (acknowledgement 1)).drop 9 ++ [newline])),
  .other .read]

/-- A fault whose code does not fit into 32 bits, in answer to the one request. -/
def outsized : String :=
  "\x7b\"jsonrpc\":\"2.0\",\"id\":1,\"error\":\x7b\"code\":3000000000,\"message\":\"full\"\x7d\x7d"

def overflowing : List Move := [
  .make, .submit 0 true, .other (.output (bytesOf outsized ++ [newline])), .other .read]

/-- Not every response is delivered. A line that a request comes in the middle of is lost though it
was written in full and read to its end, and so is a fault that the reader's record cannot hold. -/
theorem run_interrupted_loses :
    (Response.parse? Node.Json.parse? (acknowledgement 1) = some ⟨1, none, none⟩ ∧
      (History.of Node.Json.parse? (Callers.events ⟨1, []⟩ interrupted)).sent =
        bytesOf (acknowledgement 1) ++ [newline] ∧
      (start.run Node.Json.parse? (Callers.events ⟨1, []⟩ interrupted)).1 =
        ⟨[2, 1], [], [], false, true⟩ ∧
      (start.run Node.Json.parse? (Callers.events ⟨1, []⟩ interrupted)).2 = []) ∧
    ((Node.Json.parse? outsized).isSome = true ∧
      (start.run Node.Json.parse? (Callers.events ⟨1, []⟩ overflowing)).2 = []) := by
  refine ⟨⟨by decide +kernel, by decide +kernel, by decide +kernel, ?_⟩, by decide +kernel, ?_⟩
  · exact List.isEmpty_iff.mp (by decide +kernel)
  · exact List.isEmpty_iff.mp (by decide +kernel)

end Link
end Journey.Rpc
