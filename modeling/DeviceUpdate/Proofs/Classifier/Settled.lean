import DeviceUpdate.Proofs.Classifier.Calls
import DeviceUpdate.Proofs.Text.Rows

/-!
# The first definite answer

A query is answered definitely if the tool prints something else than blanks; it may also fail, or
print nothing. Only one query runs at a time, so there is a first definite answer or none. Until
then each call asks for itself and learns nothing, and from then on the device is not asked any
more: `Settles` says what each call returns and what it has done for that. No call waits forever.
-/

namespace DeviceUpdate.Inquiry

/-- The device printed something else than blanks. -/
def Definite (a : Answer) : Prop :=
  ∃ output, a = .ok output ∧ ∃ c ∈ output.stdout.toList, Text.isBlank c = false

lemma isEmpty_trimmed_iff {output : CommandOutput} :
    output.trimmed.isEmpty ↔ ∀ c ∈ output.stdout.toList, Text.isBlank c := by
  rw [CommandOutput.trimmed, Text.trimString, String.isEmpty_iff, ← Text.trim_eq_nil_iff]
  simp

lemma ofAnswer_of_definite {output : CommandOutput} (h : Definite (.ok output)) :
    BootLayout.ofAnswer (.ok output) = if output.trimmed = "yes" then .dual else .single := by
  obtain ⟨_, ⟨⟩, c, hc, hblank⟩ := h
  have hnot : ¬ output.trimmed.isEmpty := by
    rw [isEmpty_trimmed_iff]
    intro hall
    simp [hall c hc] at hblank
  simp [BootLayout.ofAnswer, hnot]

lemma ofAnswer_eq_unknown_iff {a : Answer} : BootLayout.ofAnswer a = .unknown ↔ ¬ Definite a := by
  cases a with
  | error e => simp [BootLayout.ofAnswer, Definite]
  | ok output =>
    constructor
    · intro h definite
      rw [ofAnswer_of_definite definite] at h
      split at h <;> cases h
    · intro h
      have hempty : output.trimmed.isEmpty := by
        rw [isEmpty_trimmed_iff]
        intro c hc
        by_contra hblank
        exact h ⟨output, rfl, c, hc, by simpa using hblank⟩
      simp [BootLayout.ofAnswer, hempty]

/-! ### What is known, and since when -/

/-- The device was asked. -/
def Event.Performs (event : Event) : Prop := ∃ e a, event = .performed e a

/-- The device gave a definite answer. -/
def Event.Definite (event : Event) : Prop := ∃ e a, event = .performed e a ∧ Inquiry.Definite a

/-- What is known agrees with the answers, and nobody asks again after a definite one. -/
structure Answered (c : Classifier) (s : System) : Prop where
  timeout : s.classifier.timeout = c.timeout
  keeps : ∀ layout, c.known = some layout → s.classifier.known = some layout
  found : ∀ layout, s.classifier.known = some layout →
    c.known = some layout ∨ ∃ d ∈ s.history, d.2.Definite
  sure : ∀ i e a, (i, .performed e a) ∈ s.history → Definite a →
    s.classifier.known = some (BootLayout.ofAnswer a) ∨
      ∃ call, s.threads[i]? = some ⟨call, call.answered a⟩
  open_ : ∀ d ∈ s.history, d.2.Performs → c.known = none
  order : s.history.Pairwise fun later earlier => earlier.2.Definite → ¬ later.2.Performs

namespace Answered

variable {c : Classifier} {s t : System}

/-- The answer to the query that is settled next is the only one that can be definite. -/
lemma of_holds (h : Answered c s) (orderly : Orderly s) {i j : Nat} {e : Effect} {a : Answer}
    (holds : s.Holds i) (did : (j, .performed e a) ∈ s.history) (definite : Definite a) :
    j = i ∧ ∃ call, s.threads[i]? = some ⟨call, call.answered a⟩ := by
  rcases h.sure j e a did definite with known | ⟨call, hj⟩
  · cases known.symm.trans (orderly.busy_of_holds holds).2
  · obtain rfl := orderly.alone j i ⟨call, _, hj, call.answered_held a⟩ holds
    exact ⟨rfl, call, hj⟩

lemma start (h : Answered c s) (call : Call) : Answered c (s.start call) := by
  have hcalled : ¬ (Event.called call).Performs := by
    rintro ⟨e, a, ⟨⟩⟩
  refine ⟨h.timeout, h.keeps, ?_, ?_, ?_, ?_⟩
  · intro layout known
    rcases h.found layout known with hc | ⟨d, hd, definite⟩
    · exact .inl hc
    · exact .inr ⟨d, List.mem_cons_of_mem _ hd, definite⟩
  · intro i e a he definite
    have hold : (i, Event.performed e a) ∈ s.history := by simpa [System.start] using he
    rcases h.sure i e a hold definite with known | ⟨call', hi⟩
    · exact .inl known
    · have hlt := (List.getElem?_eq_some_iff.mp hi).1
      exact .inr ⟨call', (List.getElem?_append_left hlt).trans hi⟩
  · exact List.forall_mem_cons.mpr ⟨fun hd => absurd hd hcalled, h.open_⟩
  · exact List.pairwise_cons.mpr ⟨fun d _ _ hd => absurd hd hcalled, h.order⟩

/-- A call that does not hold the question may go on, if what is known stays the same. -/
lemma silent {i : Nat} {call : Call} {old rest : Procedure Reply} {shared : Shared}
    (h : Answered c s) (here : s.threads[i]? = some ⟨call, old⟩) (plain : old.Plain)
    (timeout : shared.classifier.timeout = s.classifier.timeout)
    (known : shared.classifier.known = s.classifier.known) :
    Answered c (s.advance i call shared rest none) := by
  refine ⟨timeout.trans h.timeout, fun layout hc => known.trans (h.keeps layout hc),
    fun layout hlayout => h.found layout (known.symm.trans hlayout), fun j e a did definite => ?_,
    h.open_, h.order⟩
  rcases h.sure j e a did definite with hknown | ⟨call', hj⟩
  · exact .inl (known.trans hknown)
  · have hne : j ≠ i := by
      rintro rfl
      obtain ⟨rfl, rfl⟩ : call = call' ∧ old = call'.answered a := by
        simpa using here.symm.trans hj
      exact plain.not_held (call.answered_held a)
    exact .inr ⟨call', (List.getElem?_set_ne (Ne.symm hne)).trans hj⟩

theorem turn {i : Nat} {call : Call} (h : Answered c s) (orderly : Orderly s)
    (turn : Turn s i call t) : Answered c t := by
  cases turn with
  | asks here did free open_ => exact h.silent here call.procedure_plain rfl rfl
  | told here did known => exact h.silent here call.procedure_plain rfl rfl
  | answered a files here did =>
    have hi : s.Holds i := ⟨call, _, here, call.asking_held _⟩
    have hunknown := (orderly.busy_of_holds hi).2
    -- a call that still waits for its answer has had none before, and nobody else asks
    have hnone (d : Nat × Event) (hd : d ∈ s.history) : ¬ d.2.Definite := by
      obtain ⟨j, event⟩ := d
      rintro ⟨e, a', rfl, definite⟩
      obtain ⟨-, call', hj⟩ := h.of_holds orderly hi hd definite
      cases here.symm.trans hj
    refine ⟨h.timeout, h.keeps, fun layout known => ?_, fun j e a' did definite => ?_,
      List.forall_mem_cons.mpr ⟨fun _ => ?_, h.open_⟩,
      List.pairwise_cons.mpr ⟨fun d hd definite => absurd definite (hnone d hd), h.order⟩⟩
    · cases known.symm.trans hunknown
    · rcases List.mem_cons.mp did with heq | hold
      · obtain ⟨rfl, -, rfl⟩ := by simpa using heq
        exact .inr ⟨call, getElem?_set_here here⟩
      · exact absurd ⟨e, a', rfl, definite⟩ (hnone _ hold)
    · cases hc : c.known with
      | none => rfl
      | some layout => cases (h.keeps layout hc).symm.trans hunknown
  | @settles a here did =>
    have hi : s.Holds i := ⟨call, _, here, call.answered_held a⟩
    have hunknown := (orderly.busy_of_holds hi).2
    have hsettled (definite : Definite a) :
        (s.classifier.settle (BootLayout.ofAnswer a)).known = some (BootLayout.ofAnswer a) :=
      if_neg fun hnot => ofAnswer_eq_unknown_iff.mp hnot definite
    refine ⟨h.timeout, fun layout hc => ?_, fun layout known => ?_, fun j e a' did definite => ?_,
      h.open_, h.order⟩
    · cases (h.keeps layout hc).symm.trans hunknown
    · by_cases definite : Definite a
      · exact .inr ⟨_, mem_deeds.mp (did ▸ List.mem_cons_self), _, a, rfl, definite⟩
      · have hsame : (s.classifier.settle (BootLayout.ofAnswer a)).known = s.classifier.known :=
          if_pos (ofAnswer_eq_unknown_iff.mpr definite)
        cases known.symm.trans (hsame.trans hunknown)
    · obtain ⟨rfl, call', hj⟩ := h.of_holds orderly hi did definite
      have hlayout : BootLayout.ofAnswer a = BootLayout.ofAnswer a' := by
        have heq := here.symm.trans hj
        simp only [Call.answered, Option.some.injEq, Thread.mk.injEq, Procedure.settle.injEq] at heq
        exact heq.2.1
      have hdefinite : Definite a := by
        by_contra hnot
        exact ofAnswer_eq_unknown_iff.mp
          (hlayout.symm.trans (ofAnswer_eq_unknown_iff.mpr hnot)) definite
      exact .inl (hlayout ▸ hsettled hdefinite)

theorem step (h : Answered c s) (orderly : Orderly s) (step : Step s t) : Answered c t := by
  cases step with
  | start call => exact h.start call
  | goes goes =>
    obtain ⟨i, call, turn⟩ := goes.turn orderly.staged
    exact h.turn orderly turn

lemma fresh (c : Classifier) (files : FileSystem) : Answered c (System.fresh c files) := by
  refine ⟨rfl, fun _ hc => hc, fun _ known => .inl known, ?_, ?_, .nil⟩
  · rintro i e a ⟨⟩
  · rintro d ⟨⟩

end Answered

variable {c : Classifier} {files : FileSystem} {s t : System}

theorem answered (free : c.busy = false) (run : Run (.fresh c files) s) : Answered c s := by
  induction run with
  | refl => exact .fresh c files
  | tail reached step ih => exact ih.step (orderly free reached) step

/-! ### Every call returns -/

/-- How many steps are left of a call, at most. -/
def remaining : Procedure Reply → Nat
  | .classify _ => 3
  | .perform _ _ => 2
  | .settle _ _ => 1
  | _ => 0

def remainingOf : List Thread → Nat
  | [] => 0
  | thread :: threads => remaining thread.rest + remainingOf threads

lemma remainingOf_set_lt {threads : List Thread} {i : Nat} {old new : Thread}
    (here : threads[i]? = some old) (less : remaining new.rest < remaining old.rest) :
    remainingOf (threads.set i new) < remainingOf threads := by
  induction threads generalizing i with
  | nil => cases here
  | cons thread threads ih =>
    cases i with
    | zero =>
      obtain rfl : thread = old := by simpa using here
      exact Nat.add_lt_add_right less _
    | succ i => exact Nat.add_lt_add_left (ih here) _

lemma Turn.remaining_lt {i : Nat} {call : Call} (turn : Turn s i call t) :
    remainingOf t.threads < remainingOf s.threads := by
  cases turn with
  | asks here => exact remainingOf_set_lt here (by simp [Call.procedure_eq, Call.asking, remaining])
  | told here => exact remainingOf_set_lt here (by simp [Call.procedure_eq, remaining])
  | answered a files here =>
    exact remainingOf_set_lt here (by simp [Call.asking, Call.answered, remaining])
  | settles here => exact remainingOf_set_lt here (by simp [Call.answered, remaining])

/-- Calls do not go on forever. -/
theorem Orderly.ends (h : Orderly s) : Acc (fun t s => Goes s t) s := by
  induction hn : remainingOf s.threads using Nat.strong_induction_on generalizing s with
  | _ n ih =>
    refine ⟨s, fun t goes => ?_⟩
    obtain ⟨i, call, turn⟩ := goes.turn h.staged
    exact ih _ (hn ▸ turn.remaining_lt) (h.step (.goes goes)) rfl

/-- The call that holds the question can go on, since every answer will do. -/
lemma System.Holds.goes {i : Nat} (h : s.Holds i) : ∃ t, Goes s t := by
  obtain ⟨call, rest, here, held⟩ := h
  cases held with
  | asked => exact ⟨_, .answer (.error .bootLayoutUnknown) s.shared.files here rfl⟩
  | answered => exact ⟨_, .move here rfl⟩

/-- So can a call that asks a classifier which is free. -/
lemma Call.procedure_moves (call : Call) {shared : Shared} (free : shared.classifier.busy = false) :
    ∃ after rest, call.procedure.move shared = .step after rest := by
  rw [call.procedure_eq]
  cases known : shared.classifier.known with
  | none => exact ⟨_, _, by simp only [Procedure.move, free, known]; rfl⟩
  | some layout => exact ⟨_, _, by simp only [Procedure.move, free, known]; rfl⟩

/-- If no call can go on then all have returned. -/
theorem Orderly.returns (h : Orderly s) (stuck : ∀ t, ¬ Goes s t) {i : Nat} {thread : Thread}
    (here : s.threads[i]? = some thread) : ∃ r, s.Returned i thread.call r := by
  have hnone (j : Nat) : ¬ s.Holds j := fun holds => stuck _ holds.goes.choose_spec
  have hfree : s.classifier.busy = false := by
    by_contra hbusy
    obtain ⟨j, hj⟩ := h.holder (by simpa using hbusy)
    exact hnone j hj
  obtain ⟨call, rest⟩ := thread
  have hstage := h.staged i call rest here
  generalize deeds s.history i = did at hstage
  cases hstage with
  | waits =>
    obtain ⟨shared, rest, goes⟩ := call.procedure_moves hfree
    exact absurd (.move here goes) (stuck _)
  | asks => exact absurd ⟨call, _, here, call.asking_held _⟩ (hnone i)
  | answered => exact absurd ⟨call, _, here, call.answered_held _⟩ (hnone i)
  | settled => exact ⟨_, here⟩
  | told => exact ⟨_, here⟩

/-! ### The answer that settles it -/

/-- The call has asked the device for the boot layout, once, and for nothing else. -/
def System.Queried (s : System) (timeout : Duration) (i : Nat) (call : Call) : Prop :=
  ∃ a, deeds s.history i = [.performed (.run (BootLayout.query timeout)) a, .called call]

/-- The call has not asked the device for anything. -/
def System.Spared (s : System) (i : Nat) (call : Call) : Prop :=
  deeds s.history i = [.called call]

/-- What the first definite answer settles: it came to the call `i`, after `before` and before
`after`, and tells `layout`. -/
structure Settled (timeout : Duration) (s : System) (after : List (Nat × Event)) (i : Nat)
    (e : Effect) (before : List (Nat × Event)) (layout : BootLayout) : Prop where
  query : e = .run (BootLayout.query timeout)
  first : ∀ d ∈ before, ¬ d.2.Definite
  /-- the device is not asked any more -/
  last : (∀ d ∈ after, ¬ d.2.Performs) ∧ ∀ j f, ¬ s.Asks j f
  /-- the call that got the answer returns the layout -/
  getter : ∀ call r, s.Returned i call r → r = call.reply layout ∧ s.Queried timeout i call
  /-- so does every call that was made later -/
  later : ∀ j call r, s.Returned j call r → (j, .called call) ∈ after →
    r = call.reply layout ∧ s.Spared j call
  /-- so does one that was made before, if it had no turn to ask -/
  waiting : ∀ j call r, s.Returned j call r → j ≠ i → (∀ f a, (j, .performed f a) ∉ before) →
    r = call.reply layout ∧ s.Spared j call
  /-- one that had asked for itself returns that the layout is unknown -/
  early : ∀ j call r, s.Returned j call r → (∃ f a, (j, .performed f a) ∈ before) →
    r = call.reply .unknown ∧ s.Queried timeout j call

/-- How calls stand, at any time, on a classifier that knew no layout at first. -/
structure Settles (timeout : Duration) (s : System) : Prop where
  /-- at most one query is running -/
  alone : ∀ i j e f, s.Asks i e → s.Asks j f → i = j
  /-- as long as no answer is definite, each call asks and returns that the layout is unknown -/
  unsettled : (∀ d ∈ s.history, ¬ d.2.Definite) → ∀ i call r, s.Returned i call r →
    r = call.reply .unknown ∧ s.Queried timeout i call
  settled : ∀ after i e output before,
    s.history = after ++ (i, .performed e (.ok output)) :: before → Definite (.ok output) →
    Settled timeout s after i e before (if output.trimmed = "yes" then .dual else .single)
  /-- no call goes on forever, and none gets stuck -/
  ends : Acc (fun t s => Goes s t) s
  returns : (∀ t, ¬ Goes s t) → ∀ i thread, s.threads[i]? = some thread →
    ∃ r, s.Returned i thread.call r

/-- How calls stand on a classifier that knew the layout at first. -/
structure Fixed (layout : BootLayout) (s : System) : Prop where
  spared : (∀ d ∈ s.history, ¬ d.2.Performs) ∧ ∀ i e, ¬ s.Asks i e
  told : ∀ i call r, s.Returned i call r → r = call.reply layout
  ends : Acc (fun t s => Goes s t) s
  returns : (∀ t, ¬ Goes s t) → ∀ i thread, s.threads[i]? = some thread →
    ∃ r, s.Returned i thread.call r

namespace Stage

variable {call : Call} {rest : Procedure Reply} {did : List Event}

/-- How a call comes to its reply: it has asked, or it was told what was known. -/
lemma of_done {r : Reply} (h : Stage c call (.done r) did) :
    (∃ a, did = [.performed (.run (BootLayout.query c.timeout)) a, .called call] ∧
      r = call.reply (BootLayout.ofAnswer a)) ∨
    (did = [.called call] ∧ ∃ layout, c.known = some layout ∧ r = call.reply layout) := by
  generalize hrest : Procedure.done r = rest at h
  cases h with
  | waits =>
    rw [call.procedure_eq] at hrest
    cases hrest
  | asks | answered => cases hrest
  | @settled a =>
    obtain rfl := Procedure.done.inj hrest
    exact .inl ⟨a, rfl, rfl⟩
  | told known =>
    obtain rfl := Procedure.done.inj hrest
    exact .inr ⟨rfl, _, known, rfl⟩

lemma held_of_perform {e : Effect} {next : Answer → Procedure Reply}
    (h : Stage c call (.perform e next) did) : (Procedure.perform e next).Held := by
  generalize hrest : Procedure.perform e next = rest at h
  cases h with
  | waits =>
    rw [call.procedure_eq] at hrest
    cases hrest
  | asks => exact call.asking_held _
  | _ => cases hrest

/-- The device is asked for nothing but the boot layout. -/
lemma query (h : Stage c call rest did) {e : Effect} {a : Answer}
    (performed : .performed e a ∈ did) : e = .run (BootLayout.query c.timeout) := by
  cases h with
  | answered | settled =>
    obtain ⟨rfl, -⟩ := by simpa using performed
    rfl
  | _ => simp at performed

end Stage

lemma Orderly.holds_of_asks (h : Orderly s) {i : Nat} {e : Effect} (asks : s.Asks i e) :
    s.Holds i := by
  obtain ⟨call, next, here⟩ := asks
  exact ⟨call, _, here, (h.staged i call _ here).held_of_perform⟩

lemma Orderly.query_of_mem (h : Orderly s) {i : Nat} {e : Effect} {a : Answer}
    (did : (i, .performed e a) ∈ s.history) :
    e = .run (BootLayout.query s.classifier.timeout) := by
  have here := List.getElem?_eq_getElem (h.made i _ did)
  exact (h.staged i _ _ here).query (mem_deeds.mpr did)

/-- A call that has asked has been answered once. -/
lemma answer_eq {timeout : Duration} {i : Nat} {call : Call} {a b : Answer} {e : Effect}
    (queried : deeds s.history i =
      [.performed (.run (BootLayout.query timeout)) a, .called call])
    (did : (i, .performed e b) ∈ s.history) : b = a := by
  have hmem := queried ▸ mem_deeds.mpr did
  obtain ⟨-, rfl⟩ := by simpa using hmem
  rfl

/-- A call that has asked was made before that. -/
lemma not_called_later {timeout : Duration} {i : Nat} {call call' : Call} {a : Answer}
    {after before : List (Nat × Event)}
    (queried : deeds (after ++ before) i =
      [.performed (.run (BootLayout.query timeout)) a, .called call])
    (called : (i, .called call') ∈ after) (silent : ∀ d ∈ after, ¬ d.2.Performs) : False := by
  rw [deeds_append] at queried
  rcases List.append_eq_cons_iff.mp queried with ⟨hnil, -⟩ | ⟨others, hcons, -⟩
  · have hmem := hnil ▸ mem_deeds.mpr called
    cases hmem
  · exact silent _ (mem_deeds.mp (hcons ▸ List.mem_cons_self)) ⟨_, a, rfl⟩

/-- A call that was spared has not been answered. -/
lemma System.Spared.not_mem {i : Nat} {call : Call} (spared : s.Spared i call) (e : Effect)
    (a : Answer) : (i, .performed e a) ∉ s.history := by
  intro did
  have hmem := spared ▸ mem_deeds.mpr did
  simp at hmem

namespace Answered

/-- Whoever is told a layout is told the one of the definite answer. -/
lemma known_of_definite (h : Answered c s) (orderly : Orderly s) {i : Nat} {e : Effect}
    {a : Answer} (did : (i, .performed e a) ∈ s.history) (definite : Definite a)
    {layout : BootLayout} (known : s.classifier.known = some layout) :
    layout = BootLayout.ofAnswer a := by
  rcases h.sure i e a did definite with hknown | ⟨call, hi⟩
  · exact Option.some.inj (known.symm.trans hknown)
  · have holds : s.Holds i := ⟨call, _, hi, call.answered_held a⟩
    cases known.symm.trans (orderly.busy_of_holds holds).2

theorem unsettled (h : Answered c s) (orderly : Orderly s) (new : c.known = none)
    (none : ∀ d ∈ s.history, ¬ d.2.Definite) {i : Nat} {call : Call} {r : Reply}
    (returned : s.Returned i call r) :
    r = call.reply .unknown ∧ s.Queried c.timeout i call := by
  rcases (orderly.staged i call _ returned).of_done with ⟨a, hdid, rfl⟩ | ⟨-, layout, known, -⟩
  · have hmem : (i, .performed _ a) ∈ s.history := mem_deeds.mp (hdid ▸ List.mem_cons_self)
    have hnot : ¬ Definite a := fun definite => none _ hmem ⟨_, a, rfl, definite⟩
    rw [ofAnswer_eq_unknown_iff.mpr hnot]
    exact ⟨rfl, a, h.timeout ▸ hdid⟩
  · rcases h.found layout known with hc | ⟨d, hd, definite⟩
    · cases new.symm.trans hc
    · exact absurd definite (none d hd)

theorem settled (h : Answered c s) (orderly : Orderly s) {after before : List (Nat × Event)}
    {i : Nat} {e : Effect} {output : CommandOutput}
    (parts : s.history = after ++ (i, .performed e (.ok output)) :: before)
    (definite : Definite (.ok output)) :
    Settled c.timeout s after i e before (if output.trimmed = "yes" then .dual else .single) := by
  have hmem : (i, .performed e (.ok output)) ∈ s.history := by simp [parts]
  obtain ⟨-, hbehind, hacross⟩ := List.pairwise_append.mp (parts ▸ h.order)
  have hlast (d : Nat × Event) (hd : d ∈ after) : ¬ d.2.Performs :=
    hacross d hd _ List.mem_cons_self ⟨e, _, rfl, definite⟩
  have hfirst (d : Nat × Event) (hd : d ∈ before) : ¬ d.2.Definite := fun hdefinite =>
    List.rel_of_pairwise_cons hbehind hd hdefinite ⟨e, _, rfl⟩
  -- an answer came before the definite one, or is the definite one
  have hplace {j : Nat} {f : Effect} {a : Answer} (did : (j, .performed f a) ∈ s.history) :
      j = i ∨ (j, .performed f a) ∈ before := by
    rw [parts] at did
    rcases List.mem_append.mp did with hd | hd
    · exact absurd ⟨f, a, rfl⟩ (hlast _ hd)
    · exact (List.mem_cons.mp hd).imp (fun heq => (Prod.mk.inj heq).1) id
  -- a call has asked, or it was told the layout of the definite answer
  have hreturned {j : Nat} {call : Call} {r : Reply} (returned : s.Returned j call r) :
      (∃ a, deeds s.history j =
          [.performed (.run (BootLayout.query c.timeout)) a, .called call] ∧
        r = call.reply (BootLayout.ofAnswer a)) ∨
      (r = call.reply (if output.trimmed = "yes" then .dual else .single) ∧ s.Spared j call) := by
    rcases (orderly.staged j call _ returned).of_done with ⟨a, hdid, rfl⟩ | ⟨hdid, _, known, rfl⟩
    · exact .inl ⟨a, h.timeout ▸ hdid, rfl⟩
    · rw [h.known_of_definite orderly hmem definite known, ofAnswer_of_definite definite]
      exact .inr ⟨rfl, hdid⟩
  refine ⟨h.timeout ▸ orderly.query_of_mem hmem, hfirst, ⟨hlast, fun j f asks => ?_⟩,
    fun call r returned => ?_, fun j call r returned called => ?_,
    fun j call r returned hne silent => ?_, fun j call r returned ⟨f, a, did⟩ => ?_⟩
  · -- the call that got the answer is past its query, and no other one can ask
    obtain ⟨rfl, call, hi⟩ := h.of_holds orderly (orderly.holds_of_asks asks) hmem definite
    obtain ⟨_, _, hj⟩ := asks
    cases hi.symm.trans hj
  · rcases hreturned returned with ⟨a, hdid, rfl⟩ | ⟨-, spared⟩
    · obtain rfl := answer_eq hdid hmem
      rw [ofAnswer_of_definite definite]
      exact ⟨rfl, _, hdid⟩
    · exact absurd hmem (spared.not_mem _ _)
  · rcases hreturned returned with ⟨a, hdid, rfl⟩ | told
    · exact (not_called_later (parts ▸ hdid) called hlast).elim
    · exact told
  · rcases hreturned returned with ⟨a, hdid, rfl⟩ | told
    · rcases hplace (mem_deeds.mp (hdid ▸ List.mem_cons_self)) with rfl | hd
      · exact absurd rfl hne
      · exact absurd hd (silent _ _)
    · exact told
  · have hdid : (j, .performed f a) ∈ s.history := by simp [parts, did]
    rcases hreturned returned with ⟨b, hb, rfl⟩ | ⟨-, spared⟩
    · obtain rfl := answer_eq hb hdid
      have hnot : ¬ Definite a := fun definite => hfirst _ did ⟨f, a, rfl, definite⟩
      rw [ofAnswer_eq_unknown_iff.mpr hnot]
      exact ⟨rfl, a, hb⟩
    · exact absurd hdid (spared.not_mem _ _)

end Answered

/-! ### Runs -/

theorem settles {timeout : Duration} (run : Run (.fresh { timeout } files) s) :
    Settles timeout s := by
  have horderly := orderly rfl run
  have hanswered := answered rfl run
  refine ⟨fun i j e f hi hj => ?_, fun none i call r => hanswered.unsettled horderly rfl none,
    fun after i e output before => hanswered.settled horderly, horderly.ends,
    fun stuck i thread => horderly.returns stuck⟩
  exact horderly.alone i j (horderly.holds_of_asks hi) (horderly.holds_of_asks hj)

/-- A classifier that knows the layout asks for nothing. -/
theorem stays_fixed {layout : BootLayout} (free : c.busy = false) (fixed : c.known = some layout)
    (run : Run (.fresh c files) s) : Fixed layout s := by
  have horderly := orderly free run
  have hanswered := answered free run
  have hknown := hanswered.keeps layout fixed
  have hsilent (d : Nat × Event) (hd : d ∈ s.history) : ¬ d.2.Performs := by
    intro performs
    cases fixed.symm.trans (hanswered.open_ d hd performs)
  refine ⟨⟨hsilent, fun i e asks => ?_⟩, fun i call r returned => ?_, horderly.ends,
    fun stuck i thread => horderly.returns stuck⟩
  · cases hknown.symm.trans (horderly.busy_of_holds (horderly.holds_of_asks asks)).2
  · rcases (horderly.staged i call _ returned).of_done with ⟨a, hdid, -⟩ | ⟨-, layout', known, rfl⟩
    · exact absurd ⟨_, a, rfl⟩ (hsilent _ (mem_deeds.mp (hdid ▸ List.mem_cons_self)))
    · rw [Option.some.inj (known.symm.trans hknown)]

/-- However calls overlap and whatever the device answers, the first definite answer settles the
boot layout for all calls that have not asked by then. A classifier that is given the layout never
asks, and one that is given the unknown layout is a new one. -/
theorem first_definite_answer_settles :
    (∀ timeout files s, Run (.fresh { timeout } files) s → Settles timeout s) ∧
      (∀ layout files s, layout ≠ .unknown → Run (.fresh (.fixed layout) files) s →
        Fixed layout s) ∧
      Classifier.fixed .unknown = { timeout := Classifier.defaultTimeout } := by
  refine ⟨fun timeout files s run => settles run, fun layout files s known run => ?_, rfl⟩
  exact stays_fixed rfl (if_neg known) run

/-- Of three calls the first one gets a blank answer, the second one asks again and is told that
there are two partitions, and the third one need not ask. Where one partition is given, nobody
asks. -/
theorem second_query_settles_three_calls :
    (∃ s, Run (.fresh { timeout := Classifier.defaultTimeout } ⟨#[], 0, 0, 0, none⟩) s ∧
      Settles Classifier.defaultTimeout s ∧ s.Returned 0 .classify (.layout .unknown) ∧
      s.Returned 1 .isDual (.dual true) ∧ s.Returned 2 .classify (.layout .dual) ∧
      s.Spared 2 .classify) ∧
    ∃ s, Run (.fresh (.fixed .single) ⟨#[], 0, 0, 0, none⟩) s ∧ Fixed .single s ∧
      s.Returned 0 .isDual (.dual false) := by
  let files : FileSystem := ⟨#[], 0, 0, 0, none⟩
  have hrun := Relation.ReflTransGen.refl (r := Step)
    (a := System.fresh { timeout := Classifier.defaultTimeout } files)
    |>.tail (.start .classify) |>.tail (.start .isDual)
    |>.tail (.goes (.move (i := 0) rfl rfl))
    |>.tail (.goes (.answer (i := 0) (.ok ⟨some 1, " \n"⟩) files rfl rfl))
    |>.tail (.goes (.move (i := 0) rfl rfl))
    |>.tail (.goes (.move (i := 1) rfl rfl))
    |>.tail (.goes (.answer (i := 1) (.ok ⟨some 0, "yes\n"⟩) files rfl rfl))
    |>.tail (.goes (.move (i := 1) rfl rfl))
    |>.tail (.start .classify) |>.tail (.goes (.move (i := 2) rfl rfl))
  have hfixed := Relation.ReflTransGen.refl (r := Step)
    (a := System.fresh (Classifier.fixed .single) files)
    |>.tail (.start .isDual) |>.tail (.goes (.move (i := 0) rfl rfl))
  exact ⟨⟨_, hrun, first_definite_answer_settles.1 _ _ _ hrun, rfl, rfl, rfl, rfl⟩,
    _, hfixed, first_definite_answer_settles.2.1 _ _ _ (by decide) hfixed, rfl⟩

end DeviceUpdate.Inquiry
