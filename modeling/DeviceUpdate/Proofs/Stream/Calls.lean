import DeviceUpdate.Proofs.Stream.Moves
import DeviceUpdate.Proofs.Threads
import Mathlib.Logic.Relation

/-!
# Calls side by side on a slot

Connector and engine call one slot from several threads. A system holds the slot, the calls made so
far, where each of them stands, and a history of what happened. In each of its steps one call goes
on by one critical section, the action after the install answers, or a call that waits is woken,
with or without a reason.
-/

namespace DeviceUpdate.Stream

/-- What a thread asks of a slot. -/
inductive Call where
  | push (chunk : Bytes) (last : Bool)
  | pull
  | complete (status : EndStatus)
  | signal (status : EndStatus)
  | markApplied
  | abort
  deriving DecidableEq

/-- Where a call begins. -/
def Call.entry : Call → Point
  | .push chunk last => .push chunk last
  | .pull => .pull
  | .complete status => .complete status
  | .signal status => .signal status
  | .markApplied => .markApplied
  | .abort => .abort

/-- Something that happened to a slot. -/
inductive Event where
  /-- a chunk went in, while another one was `waiting` there or not -/
  | pushed (chunk : Bytes) (last waiting : Bool)
  /-- a chunk was turned away -/
  | refused (chunk : Bytes) (last : Bool)
  | pulled (chunk : Bytes)
  /-- a pull was told that there are no more chunks -/
  | ended
  | aborted
  /-- the engine's own report was let through -/
  | reporting (status : EndStatus)
  /-- the action after a successful install ran, and answered this -/
  | performed (answer : Except UpdateError Unit)
  /-- an end was signaled, as the `first` one or too late -/
  | signaled (status : EndStatus) (first : Bool)
  /-- a final push waited once more for the image to be applied -/
  | waited

/-- What it tells that a call went on from a point, to a status. -/
def Event.of? (s : Slot) : Point → Status → Option Event
  | .push chunk last, .returned (.pushed (.error _)) => some (.refused chunk last)
  | .push chunk last, _ => some (.pushed chunk last s.ready)
  | .pull, .returned (.pulled (some chunk)) => some (.pulled chunk)
  | .pull, .returned (.pulled none) => some .ended
  | .abort, _ => some .aborted
  | .complete status, .running _ => some (.reporting status)
  | .report status, _ => some (.signaled status (s.signal status).isSome)
  | .signal status, .returned (.signaled first) => some (.signaled status first)
  | _, _ => none

/-- What it tells that a call was woken. -/
def Event.ofWake? : Point → Option Event
  | .awaitApplied _ => some .waited
  | _ => none

lemma Event.ofWake?_eq {p : Point} {e : Event} (h : Event.ofWake? p = some e) : e = .waited := by
  cases p <;> cases h
  rfl

structure Thread where
  call : Call
  status : Status

structure System where
  slot : Slot
  threads : List Thread
  /-- by thread, last first -/
  history : List (Nat × Event)

namespace System

/-- A slot that was just made. -/
def fresh : System := ⟨{}, [], []⟩

/-- What happened so far, last first. -/
def events (s : System) : List Event := s.history.map Prod.snd

/-- Makes a call. -/
def start (s : System) (call : Call) : System :=
  { s with threads := s.threads ++ [⟨call, .running call.entry⟩] }

/-- The call `i` gets to a status, which leaves the slot like this and may tell something. -/
def advance (s : System) (i : Nat) (call : Call) (slot : Slot) (status : Status)
    (tells : Option Event) : System where
  slot := slot
  threads := s.threads.set i ⟨call, status⟩
  history := (tells.map (i, ·)).toList ++ s.history

/-- The call `i` went on from `p`. -/
def moved (s : System) (i : Nat) (call : Call) (p : Point) (slot : Slot) (status : Status) :
    System := s.advance i call slot status (Event.of? s.slot p status)

/-- The action after the install has answered the call `i`. -/
def answered (s : System) (i : Nat) (call : Call) (p : Point) (answer : Except UpdateError Unit) :
    System := s.advance i call s.slot (.running (p.resume answer)) (some (.performed answer))

/-- The call `i` has waited. -/
def woken (s : System) (i : Nat) (call : Call) (p : Point) : System :=
  s.advance i call s.slot (.running p.wake) (Event.ofWake? p)

end System

/-- One step of a system. -/
inductive Step : System → System → Prop
  | start {s : System} (call : Call) : Step s (s.start call)
  | move {s : System} {i : Nat} {call : Call} {p : Point} {slot : Slot} {status : Status}
      (here : s.threads[i]? = some ⟨call, .running p⟩)
      (goes : (p.move s.slot).result? = some (slot, status)) :
      Step s (s.moved i call p slot status)
  | answer {s : System} {i : Nat} {call : Call} {p : Point} (a : Except UpdateError Unit)
      (here : s.threads[i]? = some ⟨call, .running p⟩) (asks : p.move s.slot = .postUpdate) :
      Step s (s.answered i call p a)
  | wake {s : System} {i : Nat} {call : Call} {p : Point}
      (here : s.threads[i]? = some ⟨call, .running p⟩) (waits : p.move s.slot = .wait) :
      Step s (s.woken i call p)

/-- Any number of steps. -/
abbrev Run : System → System → Prop := Relation.ReflTransGen Step

variable {s t : System}

/-- What holds at the start and is kept by every step holds after every run. -/
theorem Run.keeps {P : System → Prop} (run : Run s t) (start : P s)
    (step : ∀ {u v}, Run s u → P u → Step u v → P v) : P t := by
  induction run with
  | refl => exact start
  | tail reached h ih => exact step reached ih h

/-! ### What a step does to the slot and to the history -/

/-- What a step tells that is nothing about the chunks: neither does it touch the slot. -/
inductive Event.Aside : Option Event → Prop
  | silent : Aside none
  | performed (a : Except UpdateError Unit) : Aside (some (.performed a))
  | waited : Aside (some .waited)

/-- A step leaves the slot alone, or a call goes on by itself. -/
lemma Step.cases (step : Step s t) :
    (t.slot = s.slot ∧ ∃ e, Event.Aside e ∧ t.events = e.toList ++ s.events) ∨
    ∃ (i : Nat) (call : Call) (p : Point) (st : Status), s.threads[i]? = some ⟨call, .running p⟩ ∧
      Goes s.slot p t.slot st ∧ t.events = (Event.of? s.slot p st).toList ++ s.events := by
  have hevents (i : Nat) (call : Call) (slot : Slot) (st : Status) (e : Option Event) :
      (s.advance i call slot st e).events = e.toList ++ s.events := by
    cases e <;> simp [System.advance, System.events]
  cases step with
  | start call => exact .inl ⟨rfl, none, .silent, rfl⟩
  | @move i call p slot st here goes =>
    exact .inr ⟨i, call, p, st, here, goes_of_move goes, hevents _ _ _ _ _⟩
  | answer a here asks => exact .inl ⟨rfl, _, .performed a, hevents _ _ _ _ _⟩
  | @wake i call p here waits =>
    refine .inl ⟨rfl, Event.ofWake? p, ?_, hevents _ _ _ _ _⟩
    cases p with
    | awaitApplied waits => exact .waited
    | _ => exact .silent

/-- A step takes nothing back. -/
lemma Step.grows (step : Step s t) : s.slot.Grows t.slot := by
  obtain ⟨hslot, -⟩ | ⟨-, -, p, st, -, goes, -⟩ := step.cases
  · rw [hslot]
    exact .refl _
  · exact goes.grows

lemma Run.grows (run : Run s t) : s.slot.Grows t.slot :=
  run.keeps (P := fun u => s.slot.Grows u.slot) (.refl _) fun _ hu step => hu.trans step.grows

/-! ### Facts about all calls -/

/-- What holds of every call. -/
def System.Each (s : System) (P : Nat → Call → Status → Prop) : Prop :=
  ∀ i call st, s.threads[i]? = some ⟨call, st⟩ → P i call st

lemma System.each_fresh {P : Nat → Call → Status → Prop} : System.fresh.Each P := by
  intro i call st hi
  cases hi

lemma mem_advance {i k : Nat} {call : Call} {slot : Slot} {st : Status} {tells : Option Event}
    {e : Event} : (k, e) ∈ (s.advance i call slot st tells).history ↔
      (k = i ∧ tells = some e) ∨ (k, e) ∈ s.history := by
  simp only [System.advance, List.mem_append, Option.mem_toList, Option.map_eq_some_iff,
    Prod.mk.injEq]
  constructor
  · rintro (⟨e', he, rfl, rfl⟩ | hold)
    · exact .inl ⟨rfl, he⟩
    · exact .inr hold
  · rintro (⟨rfl, he⟩ | hold)
    · exact .inl ⟨e, he, rfl, rfl⟩
    · exact .inr hold

lemma advance_self {i : Nat} {call : Call} {slot : Slot} {old st : Status} {tells : Option Event}
    (here : s.threads[i]? = some ⟨call, old⟩) :
    (s.advance i call slot st tells).threads[i]? = some ⟨call, st⟩ :=
  getElem?_set_here here

lemma advance_other {i j : Nat} {call : Call} {slot : Slot} {st : Status} {tells : Option Event}
    (h : j ≠ i) : (s.advance i call slot st tells).threads[j]? = s.threads[j]? :=
  List.getElem?_set_ne (Ne.symm h)

/-- A fact about all calls is kept when one of them gets on, if it stays with the others and holds
of the one. -/
lemma System.Each.advance {P Q : Nat → Call → Status → Prop} {i : Nat} {call : Call}
    {old st : Status} {slot : Slot} {tells : Option Event} (h : s.Each P)
    (here : s.threads[i]? = some ⟨call, old⟩)
    (others : ∀ j call st, j ≠ i → s.threads[j]? = some ⟨call, st⟩ → P j call st → Q j call st)
    (this : P i call old → Q i call st) : (s.advance i call slot st tells).Each Q := by
  intro j call' st' hj
  rcases getElem?_set_cases hj with ⟨rfl, heq⟩ | ⟨hne, hold⟩
  · obtain ⟨rfl, rfl⟩ := Thread.mk.inj heq
    exact this (h j call' old here)
  · exact others j call' st' hne hold (h j call' st' hold)

/-- A call is an old one, or the one that was just made. -/
lemma start_cases {i : Nat} {call other : Call} {st : Status}
    (h : (s.start other).threads[i]? = some ⟨call, st⟩) : s.threads[i]? = some ⟨call, st⟩ ∨
      i = s.threads.length ∧ call = other ∧ st = .running other.entry := by
  rcases getElem?_concat_cases h with ⟨hlast, heq⟩ | ⟨-, hold⟩
  · exact .inr ⟨hlast, Thread.mk.inj heq⟩
  · exact .inl hold

/-- It is kept when a call is made, if it stays with the others and holds of a new call. -/
lemma System.Each.start {P Q : Nat → Call → Status → Prop} {call : Call} (h : s.Each P)
    (others : ∀ j call st, s.threads[j]? = some ⟨call, st⟩ → P j call st → Q j call st)
    (this : Q s.threads.length call (.running call.entry)) : (s.start call).Each Q := by
  intro j call' st' hj
  rcases start_cases hj with hold | ⟨rfl, rfl, rfl⟩
  · exact others j call' st' hold (h j call' st' hold)
  · exact this

/-! ### What a step makes of one call -/

/-- What the call `i` has told, last first. -/
def System.deeds (s : System) (i : Nat) : List Event :=
  s.history.filterMap fun (j, e) => if j = i then some e else none

lemma mem_deeds {i : Nat} {e : Event} : e ∈ s.deeds i ↔ (i, e) ∈ s.history := by
  simp only [System.deeds, List.mem_filterMap, Prod.exists, Option.ite_none_right_eq_some,
    Option.some.injEq]
  constructor
  · rintro ⟨_, _, hm, rfl, rfl⟩
    exact hm
  · exact fun hm => ⟨i, e, hm, rfl, rfl⟩

section Advance

variable {i j : Nat} {call : Call} {slot : Slot} {old st : Status} {tells : Option Event}

lemma deeds_advance_self :
    (s.advance i call slot st tells).deeds i = tells.toList ++ s.deeds i := by
  cases tells <;> simp [System.deeds, System.advance]

lemma deeds_advance_other (h : j ≠ i) : (s.advance i call slot st tells).deeds j = s.deeds j := by
  cases tells <;> simp [System.deeds, System.advance, Ne.symm h]

end Advance

/-- What a step makes of the call `i`, so that it has this status afterwards. -/
inductive Turn (s t : System) (i : Nat) (call : Call) : Status → Prop
  /-- the call was just made -/
  | new (last : i = s.threads.length) (silent : t.deeds i = s.deeds i) :
      Turn s t i call (.running call.entry)
  /-- another call went on -/
  | idle {st : Status} (there : s.threads[i]? = some ⟨call, st⟩) (silent : t.deeds i = s.deeds i) :
      Turn s t i call st
  | goes {p : Point} {st : Status} (there : s.threads[i]? = some ⟨call, .running p⟩)
      (goes : Goes s.slot p t.slot st)
      (tells : t.deeds i = (Event.of? s.slot p st).toList ++ s.deeds i) : Turn s t i call st
  | answered {a : Except UpdateError Unit}
      (there : s.threads[i]? = some ⟨call, .running .postUpdate⟩)
      (tells : t.deeds i = .performed a :: s.deeds i) :
      Turn s t i call (.running (Point.resume a .postUpdate))
  | woken {p : Point} (there : s.threads[i]? = some ⟨call, .running p⟩) (held : p.Held s.slot)
      (tells : t.deeds i = (Event.ofWake? p).toList ++ s.deeds i) :
      Turn s t i call (.running p.wake)

/-- A call after a step is a new one, has gone on, or was not concerned. -/
theorem Step.turn (step : Step s t) {i : Nat} {call : Call} {st : Status}
    (h : t.threads[i]? = some ⟨call, st⟩) : Turn s t i call st := by
  -- the call is the one that the step concerns, or it is idle
  have hadvance {j : Nat} {other : Call} {slot : Slot} {old new : Status} {tells : Option Event}
      (ht : t = s.advance j other slot new tells) (here : s.threads[j]? = some ⟨other, old⟩) :
      (i = j ∧ call = other ∧ st = new) ∨ Turn s t i call st := by
    subst ht
    by_cases hij : i = j
    · subst hij
      rw [advance_self here] at h
      obtain ⟨rfl, rfl⟩ : other = call ∧ new = st := by simpa using h
      exact .inl ⟨rfl, rfl, rfl⟩
    · exact .inr (.idle ((advance_other hij).symm.trans h) (deeds_advance_other hij))
  cases step with
  | start other =>
    rcases start_cases h with hold | ⟨rfl, rfl, rfl⟩
    · exact .idle hold rfl
    · exact .new rfl rfl
  | move here goes =>
    rcases hadvance rfl here with ⟨rfl, rfl, rfl⟩ | turn
    · exact .goes here (goes_of_move goes) deeds_advance_self
    · exact turn
  | answer a here asks =>
    obtain rfl := eq_of_postUpdate asks
    rcases hadvance rfl here with ⟨rfl, rfl, rfl⟩ | turn
    · exact .answered here deeds_advance_self
    · exact turn
  | wake here waits =>
    rcases hadvance rfl here with ⟨rfl, rfl, rfl⟩ | turn
    · exact .woken here (held_of_wait waits) deeds_advance_self
    · exact turn

/-- A step keeps every call. -/
lemma Step.keeps_call (step : Step s t) {i : Nat} {call : Call} {st : Status}
    (h : s.threads[i]? = some ⟨call, st⟩) : ∃ st', t.threads[i]? = some ⟨call, st'⟩ := by
  have hset {j : Nat} {other : Call} {p : Point} {slot : Slot} {new : Status}
      {tells : Option Event} (here : s.threads[j]? = some ⟨other, .running p⟩) :
      ∃ st', (s.advance j other slot new tells).threads[i]? = some ⟨call, st'⟩ := by
    by_cases hij : i = j
    · subst hij
      obtain ⟨rfl, -⟩ : other = call ∧ .running p = st := by simpa [here] using h
      exact ⟨new, advance_self here⟩
    · exact ⟨st, (advance_other hij).trans h⟩
  cases step with
  | start call =>
    exact ⟨st, (List.getElem?_append_left (List.getElem?_eq_some_iff.mp h).1).trans h⟩
  | move here | answer a here | wake here => exact hset here

/-- Whatever happened was done by a call that was made. -/
lemma made_of_mem (run : Run .fresh s) {i : Nat} {e : Event} (h : (i, e) ∈ s.history) :
    i < s.threads.length := by
  induction run with
  | refl => cases h
  | @tail u v reached step ih =>
    have hset {j : Nat} {call : Call} {p : Point} {slot : Slot} {st : Status}
        {tells : Option Event} (here : u.threads[j]? = some ⟨call, .running p⟩)
        (hm : (i, e) ∈ (u.advance j call slot st tells).history) :
        i < (u.advance j call slot st tells).threads.length := by
      rw [System.advance, List.length_set]
      rcases mem_advance.mp hm with ⟨rfl, -⟩ | hold
      · exact (List.getElem?_eq_some_iff.mp here).1
      · exact ih hold
    cases step with
    | start call =>
      rw [System.start, List.length_append]
      exact Nat.lt_add_right _ (ih h)
    | move here | answer a here | wake here => exact hset here h

/-- A call that is yet to be made has told nothing. -/
lemma deeds_new (run : Run .fresh s) : s.deeds s.threads.length = [] :=
  List.eq_nil_iff_forall_not_mem.mpr fun _ he =>
    Nat.lt_irrefl _ (made_of_mem run (mem_deeds.mp he))

/-! ### Where a call stands, and what it has told -/

/-- Where a call can stand. -/
inductive Call.Stands : Call → Status → Prop
  | entry {call : Call} : Stands call (.running call.entry)
  | awaitsEnd {chunk : Bytes} : Stands (.push chunk true) (.running .awaitEnd)
  | awaitsApplied {chunk : Bytes} {waits : Nat} :
      Stands (.push chunk true) (.running (.awaitApplied waits))
  | pushed {chunk : Bytes} {last : Bool} {result : Except UpdateError Unit} :
      Stands (.push chunk last) (.returned (.pushed result))
  | pulled {chunk : Option Bytes} : Stands .pull (.returned (.pulled chunk))
  | performs : Stands (.complete .success) (.running .postUpdate)
  | reports {status last : EndStatus} : Stands (.complete status) (.running (.report last))
  | applies {status : EndStatus} : Stands (.complete status) (.running .apply)
  | completed {status : EndStatus} : Stands (.complete status) (.returned .completed)
  | signaled {status : EndStatus} {first : Bool} :
      Stands (.signal status) (.returned (.signaled first))
  | applied : Stands .markApplied (.returned .applied)
  | awaitsAbort : Stands .abort (.running .awaitAbort)
  | aborted {status : EndStatus} : Stands .abort (.returned (.aborted status))

/-- A call that goes on stands where it can stand. -/
lemma Call.Stands.goes {call : Call} {p : Point} {a b : Slot} {st : Status}
    (h : call.Stands (.running p)) (goes : Goes a p b st) : call.Stands st := by
  cases call with
  | push chunk last =>
    cases h with
    | entry =>
      cases goes with
      | pushedFinal => exact .awaitsEnd
      | _ => exact .pushed
    | awaitsEnd =>
      cases goes with
      | succeeded => exact .awaitsApplied
      | _ => exact .pushed
    | awaitsApplied => cases goes <;> exact .pushed
  | pull =>
    cases h
    cases goes <;> exact .pulled
  | complete status =>
    cases h with
    | entry =>
      cases goes with
      | completesSuccess => exact .performs
      | completesFailure => exact .reports
      | _ => exact .completed
    | performs => cases goes
    | reports =>
      cases goes with
      | reportedSuccess => exact .applies
      | _ => exact .completed
    | applies =>
      cases goes
      exact .completed
  | signal status =>
    cases h
    cases goes <;> exact .signaled
  | markApplied =>
    cases h
    cases goes
    exact .applied
  | abort =>
    cases h with
    | entry =>
      cases goes
      exact .awaitsAbort
    | awaitsAbort =>
      cases goes
      exact .aborted

/-- Every call stands where it can stand. -/
theorem stands (run : Run .fresh s) : s.Each fun _ call st => call.Stands st := by
  refine run.keeps (P := fun s => s.Each fun _ call st => call.Stands st) System.each_fresh
    fun _ hu step i call st hi => ?_
  cases step.turn hi with
  | new => exact .entry
  | idle there => exact hu i call st there
  | goes there goes => exact (hu i call _ there).goes goes
  | @answered a there =>
    cases call <;> cases hu i _ _ there
    cases a <;> exact .reports
  | woken there held =>
    cases hu i call _ there with
    | awaitsApplied => exact .awaitsApplied
    | awaitsEnd => exact .awaitsEnd
    | awaitsAbort => exact .awaitsAbort
    | entry => cases call <;> exact .entry
    | _ => exact held.elim

/-- A call that goes on does not come back to its entry. -/
lemma Call.Stands.past_entry {call : Call} {p q : Point} {a b : Slot}
    (h : call.Stands (.running p)) (goes : Goes a p b (.running q)) : q ≠ call.entry := by
  rintro rfl
  cases call <;> cases h <;> cases goes

/-- A call has told nothing before its first section. -/
theorem silent_at_entry (run : Run .fresh s) : s.Each fun i call st =>
    st = .running call.entry → s.deeds i = [] := by
  refine run.keeps (P := fun s => s.Each fun i call st => st = .running call.entry →
    s.deeds i = []) System.each_fresh fun reached hu step i call st hi hst => ?_
  cases step.turn hi with
  | new last silent => rw [silent, last, deeds_new reached]
  | idle there silent => rw [silent, hu i call _ there hst]
  | goes there goes =>
    subst hst
    exact ((stands reached i _ _ there).past_entry goes rfl).elim
  | @answered a there => cases a <;> cases call <;> cases hst
  | @woken p there held tells =>
    cases p with
    | awaitApplied => cases call <;> cases hst
    | _ => exact tells.trans (hu i call _ there hst)

/-- What the answer of a call tells, if the call has one section only. -/
def Call.told? : Call → Reply → Option Event
  | .pull, .pulled (some chunk) => some (.pulled chunk)
  | .pull, .pulled none => some .ended
  | .signal status, .signaled first => some (.signaled status first)
  | _, _ => none

/-- Such a call goes from its entry to the answer, and tells it. -/
lemma Call.Stands.tells {call : Call} {p : Point} {a b : Slot} {r : Reply} {e : Event}
    (h : call.Stands (.running p)) (goes : Goes a p b (.returned r)) (he : call.told? r = some e) :
    p = call.entry ∧ Event.of? a p (.returned r) = some e := by
  cases call with
  | pull =>
    cases h
    cases goes <;> exact ⟨rfl, he⟩
  | signal status =>
    cases h
    cases goes <;> exact ⟨rfl, he⟩
  | _ => cases he

/-- A call of one section has told just what it answered. -/
theorem told (run : Run .fresh s) : s.Each fun i call st =>
    ∀ r e, st = .returned r → call.told? r = some e → s.deeds i = [e] := by
  refine run.keeps (P := fun s => s.Each fun i call st =>
    ∀ r e, st = .returned r → call.told? r = some e → s.deeds i = [e]) System.each_fresh
    fun reached hu step i call st hi r e hst he => ?_
  cases step.turn hi with
  | new => cases hst
  | idle there silent => rw [silent, hu i call _ there r e hst he]
  | goes there goes tells =>
    subst hst
    obtain ⟨rfl, hof⟩ := (stands reached i call _ there).tells goes he
    rw [tells, hof, silent_at_entry reached i call _ there rfl]
    rfl
  | answered => cases hst
  | woken => cases hst

/-! ### Replays -/

/-- What goes on next. -/
inductive Choice where
  | start (call : Call)
  /-- the call with this number goes on, or waits a little longer -/
  | go (i : Nat)
  /-- the action after the install answers the call with this number -/
  | answer (i : Nat) (a : Except UpdateError Unit)

def System.next? (s : System) : Choice → Option System
  | .start call => some (s.start call)
  | .go i =>
    match s.threads[i]? with
    | some ⟨call, .running p⟩ =>
      match p.move s.slot with
      | .reply slot r => some (s.moved i call p slot (.returned r))
      | .step slot q => some (s.moved i call p slot (.running q))
      | .wait => some (s.woken i call p)
      | .postUpdate => none
    | _ => none
  | .answer i a =>
    match s.threads[i]? with
    | some ⟨call, .running p⟩ =>
      match p.move s.slot with
      | .postUpdate => some (s.answered i call p a)
      | _ => none
    | _ => none

def System.replay? : System → List Choice → Option System
  | s, [] => some s
  | s, c :: rest => (s.next? c).bind (·.replay? rest)

lemma step_of_next {c : Choice} (h : s.next? c = some t) : Step s t := by
  cases c with
  | start call =>
    obtain rfl := Option.some.inj h
    exact .start call
  | go i =>
    simp only [System.next?] at h
    split at h
    case h_1 call p here =>
      split at h
      case h_1 slot r hm => exact Option.some.inj h ▸ .move here (by rw [hm]; rfl)
      case h_2 slot q hm => exact Option.some.inj h ▸ .move here (by rw [hm]; rfl)
      case h_3 hm => exact Option.some.inj h ▸ .wake here hm
      case h_4 hm => cases h
    case h_2 => cases h
  | answer i a =>
    simp only [System.next?] at h
    split at h
    case h_1 call p here =>
      split at h
      case h_1 hm => exact Option.some.inj h ▸ .answer a here hm
      case h_2 hm => cases h
    case h_2 => cases h

/-- What a replay comes to is reached by a run. -/
theorem run_of_replay {choices : List Choice} (h : s.replay? choices = some t) : Run s t := by
  induction choices generalizing s with
  | nil =>
    obtain rfl : s = t := Option.some.inj h
    exact .refl
  | cons c rest ih =>
    obtain ⟨u, hu, hrest⟩ := Option.bind_eq_some_iff.mp h
    exact .head (step_of_next hu) (ih hrest)

end DeviceUpdate.Stream
