import DeviceUpdate.Proofs.Classifier
import DeviceUpdate.Proofs.Threads
import Mathlib.Logic.Relation

/-!
# Calls side by side on a classifier

Callers ask one classifier for the boot layout, from several threads. In each step of a system
somebody calls, or one call goes on: by itself, or because the device answers its query, however it
does. `Stage` tells where a call can stand and what it has done by then; `Orderly` is the invariant
that comes of one call asking at a time.
-/

namespace DeviceUpdate.Inquiry

/-- What a caller wants to know. -/
inductive Call where
  /-- which boot layout there is -/
  | classify
  /-- whether there are two system partitions -/
  | isDual
  deriving DecidableEq

/-- What a call returns. -/
inductive Reply where
  | layout (layout : BootLayout)
  | dual (dual : Bool)
  deriving DecidableEq

namespace Call

def procedure : Call → Procedure Reply
  | .classify => Procedure.bootLayout.bind fun layout => .done (.layout layout)
  | .isDual => Procedure.isDual.bind fun dual => .done (.dual dual)

/-- What the call returns if the layout is this one. -/
def reply : Call → BootLayout → Reply
  | .classify, layout => .layout layout
  | .isDual, layout => .dual (layout == .dual)

/-- What is left of a call that has the answer to its query. -/
def answered (call : Call) (a : Answer) : Procedure Reply :=
  .settle (BootLayout.ofAnswer a) (.done (call.reply (BootLayout.ofAnswer a)))

/-- What is left of a call that queries the device. -/
def asking (call : Call) (timeout : Duration) : Procedure Reply :=
  .perform (.run (BootLayout.query timeout)) call.answered

lemma procedure_eq (call : Call) :
    call.procedure = .classify fun layout => .done (call.reply layout) := by
  cases call <;> rfl

lemma procedure_plain (call : Call) : call.procedure.Plain := by
  rw [procedure_eq]
  exact .classify fun layout => .done _

lemma answered_held (call : Call) (a : Answer) : (call.answered a).Held := .answered (.done _)

lemma asking_held (call : Call) (timeout : Duration) : (call.asking timeout).Held :=
  .asked fun layout => .done (call.reply layout)

end Call

/-! ### Steps -/

inductive Event where
  | called (call : Call)
  | performed (e : Effect) (answer : Answer)

/-- A call, and what is left of it: its reply if it has returned. -/
structure Thread where
  call : Call
  rest : Procedure Reply

structure System where
  shared : Shared
  threads : List Thread
  /-- by thread, last first -/
  history : List (Nat × Event)

/-- What the call `i` has done, last first. -/
def deeds (history : List (Nat × Event)) (i : Nat) : List Event :=
  history.filterMap fun (j, e) => if j = i then some e else none

namespace System

abbrev classifier (s : System) : Classifier := s.shared.classifier

/-- A classifier that nobody has called yet. -/
def fresh (c : Classifier) (files : FileSystem) : System := ⟨⟨files, c⟩, [], []⟩

/-- Makes a call. -/
def start (s : System) (call : Call) : System :=
  ⟨s.shared, s.threads ++ [⟨call, call.procedure⟩],
    (s.threads.length, .called call) :: s.history⟩

/-- This is left of the call `i` now, and it may have done something. -/
def advance (s : System) (i : Nat) (call : Call) (shared : Shared) (rest : Procedure Reply)
    (tells : Option Event) : System :=
  ⟨shared, s.threads.set i ⟨call, rest⟩, (tells.map (i, ·)).toList ++ s.history⟩

/-- The call `i` waits for the device to answer. -/
def Asks (s : System) (i : Nat) (e : Effect) : Prop :=
  ∃ call next, s.threads[i]? = some ⟨call, .perform e next⟩

/-- The call `i` has returned. -/
def Returned (s : System) (i : Nat) (call : Call) (r : Reply) : Prop :=
  s.threads[i]? = some ⟨call, .done r⟩

end System

/-- A call goes on. -/
inductive Goes : System → System → Prop
  | move {s : System} {i : Nat} {call : Call} {p rest : Procedure Reply} {shared : Shared}
      (here : s.threads[i]? = some ⟨call, p⟩) (goes : p.move s.shared = .step shared rest) :
      Goes s (s.advance i call shared rest none)
  | answer {s : System} {i : Nat} {call : Call} {p : Procedure Reply} {e : Effect} (a : Answer)
      (files : FileSystem) (here : s.threads[i]? = some ⟨call, p⟩)
      (asks : p.move s.shared = .effect e) :
      Goes s (s.advance i call { s.shared with files } (p.resume a) (some (.performed e a)))

/-- One step of a system. -/
inductive Step : System → System → Prop
  | start {s : System} (call : Call) : Step s (s.start call)
  | goes {s t : System} (goes : Goes s t) : Step s t

/-- Any number of steps. -/
abbrev Run : System → System → Prop := Relation.ReflTransGen Step

variable {s t : System}

/-! ### What a call has done -/

section Deeds

variable {i j : Nat}

lemma deeds_cons_self (e : Event) (history : List (Nat × Event)) :
    deeds ((i, e) :: history) i = e :: deeds history i := by
  simp [deeds]

lemma deeds_cons_other (e : Event) (history : List (Nat × Event)) (h : j ≠ i) :
    deeds ((i, e) :: history) j = deeds history j := by
  simp [deeds, Ne.symm h]

lemma deeds_append (after before : List (Nat × Event)) :
    deeds (after ++ before) i = deeds after i ++ deeds before i :=
  List.filterMap_append

lemma mem_deeds {e : Event} {history : List (Nat × Event)} :
    e ∈ deeds history i ↔ (i, e) ∈ history := by
  simp only [deeds, List.mem_filterMap, Prod.exists, Option.ite_none_right_eq_some,
    Option.some.injEq]
  constructor
  · rintro ⟨_, _, hm, rfl, rfl⟩
    exact hm
  · exact fun hm => ⟨i, e, hm, rfl, rfl⟩

end Deeds

/-! ### Where a call stands, and what it has done -/

/-- Where a call can stand, and what it has done by then, last first. -/
inductive Stage (c : Classifier) (call : Call) : Procedure Reply → List Event → Prop
  | waits : Stage c call call.procedure [.called call]
  | asks (busy : c.busy) (open_ : c.known = none) :
      Stage c call (call.asking c.timeout) [.called call]
  | answered {a : Answer} (busy : c.busy) (open_ : c.known = none) :
      Stage c call (call.answered a)
        [.performed (.run (BootLayout.query c.timeout)) a, .called call]
  | settled {a : Answer} :
      Stage c call (.done (call.reply (BootLayout.ofAnswer a)))
        [.performed (.run (BootLayout.query c.timeout)) a, .called call]
  | told {layout : BootLayout} (known : c.known = some layout) :
      Stage c call (.done (call.reply layout)) [.called call]

namespace Stage

variable {c d : Classifier} {call : Call} {rest : Procedure Reply} {did : List Event}

lemma busy_of_held (h : Stage c call rest did) (held : rest.Held) :
    c.busy ∧ c.known = none := by
  cases h with
  | waits => exact absurd held call.procedure_plain.not_held
  | asks busy open_ => exact ⟨busy, open_⟩
  | answered busy open_ => exact ⟨busy, open_⟩
  | settled => cases held
  | told => cases held

/-- A call is not touched by what another one does to the classifier, if that keeps what is known
and does not take the question away from the call. -/
lemma mono (h : Stage c call rest did) (timeout : d.timeout = c.timeout)
    (keeps : ∀ layout, c.known = some layout → d.known = some layout)
    (holds : rest.Held → d.busy ∧ d.known = none) : Stage d call rest did := by
  cases h with
  | waits => exact .waits
  | asks busy open_ =>
    obtain ⟨hbusy, hopen⟩ := holds (call.asking_held _)
    exact timeout ▸ .asks hbusy hopen
  | answered busy open_ =>
    obtain ⟨hbusy, hopen⟩ := holds (call.answered_held _)
    exact timeout ▸ .answered hbusy hopen
  | settled => exact timeout ▸ .settled
  | told known => exact .told (keeps _ known)

end Stage

/-- Every call stands where it can stand. -/
def System.Staged (s : System) : Prop :=
  ∀ i call rest, s.threads[i]? = some ⟨call, rest⟩ →
    Stage s.classifier call rest (deeds s.history i)

/-- The four ways in which a call goes on. -/
inductive Turn (s : System) (i : Nat) (call : Call) : System → Prop
  /-- it begins to ask -/
  | asks (here : s.threads[i]? = some ⟨call, call.procedure⟩)
      (did : deeds s.history i = [.called call]) (free : s.classifier.busy = false)
      (open_ : s.classifier.known = none) :
      Turn s i call (s.advance i call
        { s.shared with classifier := { s.classifier with busy := true } }
        (call.asking s.classifier.timeout) none)
  /-- it is told what is known -/
  | told {layout : BootLayout} (here : s.threads[i]? = some ⟨call, call.procedure⟩)
      (did : deeds s.history i = [.called call]) (known : s.classifier.known = some layout) :
      Turn s i call (s.advance i call s.shared (.done (call.reply layout)) none)
  /-- the device answers its query -/
  | answered (a : Answer) (files : FileSystem)
      (here : s.threads[i]? = some ⟨call, call.asking s.classifier.timeout⟩)
      (did : deeds s.history i = [.called call]) :
      Turn s i call (s.advance i call { s.shared with files } (call.answered a)
        (some (.performed (.run (BootLayout.query s.classifier.timeout)) a)))
  /-- it settles its question -/
  | settles {a : Answer} (here : s.threads[i]? = some ⟨call, call.answered a⟩)
      (did : deeds s.history i =
        [.performed (.run (BootLayout.query s.classifier.timeout)) a, .called call]) :
      Turn s i call (s.advance i call
        { s.shared with classifier := s.classifier.settle (BootLayout.ofAnswer a) }
        (.done (call.reply (BootLayout.ofAnswer a))) none)

lemma Goes.turn (h : Goes s t) (staged : s.Staged) : ∃ i call, Turn s i call t := by
  cases h with
  | @move i call p rest shared here goes =>
    refine ⟨i, call, ?_⟩
    have hstage := staged i call p here
    generalize hdid : deeds s.history i = did at hstage
    cases hstage with
    | waits =>
      rw [call.procedure_eq] at goes
      simp only [Procedure.move] at goes
      split at goes
      · cases goes
      · rename_i free
        split at goes
        · rename_i known
          obtain ⟨rfl, rfl⟩ := by simpa using goes
          exact .told here hdid known
        · rename_i open_
          obtain ⟨rfl, rfl⟩ := by simpa using goes
          exact .asks here hdid (by simpa using free) open_
    | answered =>
      obtain ⟨rfl, rfl⟩ := by simpa [Procedure.move, Call.answered] using goes
      exact .settles here hdid
    | _ => cases goes
  | @answer i call p e a files here asks =>
    refine ⟨i, call, ?_⟩
    have hstage := staged i call p here
    generalize hdid : deeds s.history i = did at hstage
    cases hstage with
    | waits =>
      obtain ⟨next, hnext⟩ := Procedure.perform_of_effect asks
      rw [call.procedure_eq] at hnext
      cases hnext
    | asks =>
      obtain rfl : _ = e := by simpa [Procedure.move, Call.asking] using asks
      exact .answered a files here hdid
    | _ => cases asks

/-! ### One call asks at a time -/

/-- The call `i` holds the question for the boot layout. -/
def System.Holds (s : System) (i : Nat) : Prop :=
  ∃ call rest, s.threads[i]? = some ⟨call, rest⟩ ∧ rest.Held

/-- Every call stands where it can stand, and as long as the classifier is busy one call holds the
question. -/
structure Orderly (s : System) : Prop where
  staged : s.Staged
  holder : s.classifier.busy → ∃ i, s.Holds i
  alone : ∀ i j, s.Holds i → s.Holds j → i = j
  made : ∀ i e, (i, e) ∈ s.history → i < s.threads.length

namespace Orderly

lemma busy_of_holds (h : Orderly s) {i : Nat} (holds : s.Holds i) :
    s.classifier.busy ∧ s.classifier.known = none := by
  obtain ⟨call, rest, hi, held⟩ := holds
  exact (h.staged i call rest hi).busy_of_held held

lemma not_holds_of_free (h : Orderly s) (free : s.classifier.busy = false) (i : Nat) :
    ¬ s.Holds i := by
  intro holds
  simp [(h.busy_of_holds holds).1] at free

lemma start (h : Orderly s) (call : Call) : Orderly (s.start call) := by
  have hback {i : Nat} (hi : (s.start call).Holds i) : s.Holds i := by
    obtain ⟨call', rest, hi, held⟩ := hi
    rcases getElem?_concat_cases hi with ⟨-, heq⟩ | ⟨-, hold⟩
    · obtain ⟨-, rfl⟩ := Thread.mk.inj heq
      exact absurd held call.procedure_plain.not_held
    · exact ⟨call', rest, hold, held⟩
  refine ⟨?_, ?_, fun i j hi hj => h.alone i j (hback hi) (hback hj), ?_⟩
  · intro i call' rest hi
    rcases getElem?_concat_cases hi with ⟨rfl, heq⟩ | ⟨hlt, hold⟩
    · obtain ⟨rfl, rfl⟩ := Thread.mk.inj heq
      -- nobody has done anything under this number yet
      have hnone : deeds s.history s.threads.length = [] :=
        List.eq_nil_iff_forall_not_mem.mpr fun e he =>
          Nat.lt_irrefl _ (h.made _ e (mem_deeds.mp he))
      rw [System.start, deeds_cons_self, hnone]
      exact .waits
    · rw [System.start, deeds_cons_other _ _ (Nat.ne_of_lt hlt)]
      exact h.staged i call' rest hold
  · intro busy
    obtain ⟨i, call', rest, hi, held⟩ := h.holder busy
    have hlt := (List.getElem?_eq_some_iff.mp hi).1
    exact ⟨i, call', rest, (List.getElem?_append_left hlt).trans hi, held⟩
  · intro i e he
    rw [System.start, List.length_append]
    rcases List.mem_cons.mp he with heq | hold
    · obtain rfl := (Prod.mk.inj heq).1
      exact Nat.lt_succ_self _
    · exact Nat.lt_succ_of_lt (h.made i e hold)

section Advance

variable {i : Nat} {call : Call} {old rest : Procedure Reply} {shared : Shared}
  {tells : Option Event}

lemma staged_advance (h : Orderly s) (timeout : shared.classifier.timeout = s.classifier.timeout)
    (keeps : ∀ layout, s.classifier.known = some layout →
      shared.classifier.known = some layout)
    (others : ∀ j, j ≠ i → s.Holds j → shared.classifier.busy ∧ shared.classifier.known = none)
    (this : Stage shared.classifier call rest (tells.toList ++ deeds s.history i)) :
    (s.advance i call shared rest tells).Staged := by
  intro j call' rest' hj
  rcases getElem?_set_cases hj with ⟨rfl, heq⟩ | ⟨hne, hold⟩
  · obtain ⟨rfl, rfl⟩ := Thread.mk.inj heq
    cases tells with
    | none => exact this
    | some e => exact (deeds_cons_self e s.history).symm ▸ this
  · have hdeeds : deeds (s.advance i call shared rest tells).history j = deeds s.history j := by
      cases tells with
      | none => rfl
      | some e => exact deeds_cons_other e s.history hne
    rw [hdeeds]
    exact (h.staged j call' rest' hold).mono timeout keeps fun held =>
      others j hne ⟨call', rest', hold, held⟩

lemma made_advance (h : Orderly s) (here : s.threads[i]? = some ⟨call, old⟩) (j : Nat) (e : Event)
    (he : (j, e) ∈ (s.advance i call shared rest tells).history) :
    j < (s.advance i call shared rest tells).threads.length := by
  rw [System.advance, List.length_set]
  rcases List.mem_append.mp he with hnew | hold
  · obtain ⟨_, -, heq⟩ := Option.map_eq_some_iff.mp (Option.mem_toList.mp hnew)
    obtain rfl := (Prod.mk.inj heq).1
    exact (List.getElem?_eq_some_iff.mp here).1
  · exact h.made j e hold

lemma holds_self (here : s.threads[i]? = some ⟨call, old⟩) (held : rest.Held) :
    (s.advance i call shared rest tells).Holds i :=
  ⟨call, rest, getElem?_set_here here, held⟩

lemma holds_cases {j : Nat} (h : (s.advance i call shared rest tells).Holds j) :
    (j = i ∧ rest.Held) ∨ (j ≠ i ∧ s.Holds j) := by
  obtain ⟨call', rest', hj, held⟩ := h
  rcases getElem?_set_cases hj with ⟨rfl, heq⟩ | ⟨hne, hold⟩
  · obtain ⟨-, rfl⟩ := Thread.mk.inj heq
    exact .inl ⟨rfl, held⟩
  · exact .inr ⟨hne, call', rest', hold, held⟩

lemma holds_before (this : rest.Held → s.Holds i) {j : Nat}
    (h : (s.advance i call shared rest tells).Holds j) : s.Holds j := by
  rcases holds_cases h with ⟨rfl, held⟩ | ⟨-, hj⟩
  · exact this held
  · exact hj

/-- Where nobody else holds the question, only this call can hold it. -/
lemma holds_only (nobody : ∀ j, j ≠ i → ¬ s.Holds j) {j : Nat}
    (h : (s.advance i call shared rest tells).Holds j) : j = i ∧ rest.Held := by
  rcases holds_cases h with this | ⟨hne, hj⟩
  · exact this
  · exact absurd hj (nobody j hne)

end Advance

theorem turn {i : Nat} {call : Call} (h : Orderly s) (turn : Turn s i call t) : Orderly t := by
  cases turn with
  | asks here did free open_ =>
    have hnone (j : Nat) (_ : j ≠ i) : ¬ s.Holds j := h.not_holds_of_free free j
    refine ⟨h.staged_advance rfl (fun _ known => known) ?_ (did ▸ .asks rfl open_),
      fun _ => ⟨i, holds_self here (call.asking_held _)⟩, fun j k hj hk => ?_, h.made_advance here⟩
    · exact fun j hne hj => absurd hj (hnone j hne)
    · rw [(holds_only hnone hj).1, (holds_only hnone hk).1]
  | @told layout here did known =>
    refine ⟨h.staged_advance rfl (fun _ known => known) (fun j _ hj => h.busy_of_holds hj)
      (did ▸ .told known), fun busy => ?_, fun j k hj hk => ?_, h.made_advance here⟩
    · -- a layout that is known is not asked for
      obtain ⟨j, hj⟩ := h.holder busy
      cases known.symm.trans (h.busy_of_holds hj).2
    · have hdone (held : (Procedure.done (call.reply layout)).Held) : s.Holds i :=
        absurd held (Procedure.Plain.done _).not_held
      exact h.alone j k (holds_before hdone hj) (holds_before hdone hk)
  | answered a files here did =>
    have hi : s.Holds i := ⟨call, _, here, call.asking_held _⟩
    obtain ⟨busy, open_⟩ := h.busy_of_holds hi
    refine ⟨h.staged_advance rfl (fun _ known => known) (fun j _ hj => h.busy_of_holds hj)
      (did ▸ .answered busy open_), fun _ => ⟨i, holds_self here (call.answered_held a)⟩,
      fun j k hj hk => ?_, h.made_advance here⟩
    exact h.alone j k (holds_before (fun _ => hi) hj) (holds_before (fun _ => hi) hk)
  | settles here did =>
    have hi : s.Holds i := ⟨call, _, here, call.answered_held _⟩
    have hnone (j : Nat) (hne : j ≠ i) : ¬ s.Holds j := fun hj => hne (h.alone j i hj hi)
    refine ⟨h.staged_advance rfl (fun layout known => ?_) (fun j hne hj => ?_)
      (did ▸ .settled), fun busy => ?_, fun j k hj _ => ?_, h.made_advance here⟩
    · cases known.symm.trans (h.busy_of_holds hi).2
    · exact absurd hj (hnone j hne)
    · cases busy
    · cases (holds_only hnone hj).2

theorem step (h : Orderly s) (step : Step s t) : Orderly t := by
  cases step with
  | start call => exact h.start call
  | goes goes =>
    obtain ⟨i, call, turn⟩ := goes.turn h.staged
    exact h.turn turn

lemma fresh {c : Classifier} (free : c.busy = false) (files : FileSystem) :
    Orderly (System.fresh c files) := by
  refine ⟨?_, ?_, ?_, ?_⟩
  · rintro i call rest ⟨⟩
  · intro busy
    cases free.symm.trans busy
  · rintro i j ⟨_, _, ⟨⟩, _⟩
  · rintro i e ⟨⟩

end Orderly

/-- Calls on a classifier that was free are orderly forever. -/
theorem orderly {c : Classifier} {files : FileSystem} (free : c.busy = false)
    (run : Run (.fresh c files) s) : Orderly s := by
  induction run with
  | refl => exact .fresh free files
  | tail _ step ih => exact ih.step step

end DeviceUpdate.Inquiry
