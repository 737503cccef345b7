import DeviceUpdate.Proofs.Session.Grounds
import DeviceUpdate.Proofs.Session.Replay

/-!
# Calls that leave no trace

A call that is refused at once goes by unseen: with it or without it the controller goes through
the same runs. A cancel that names another target than the one under way should be such a call. It
is one as long as the update takes data, but neither before its delivery is known nor after its
final chunk.
-/

namespace DeviceUpdate.Session

section

variable {σ : Type} {setup : Setup} {around : Surroundings σ} {s t : System σ}

/-! ### A run without one of its calls -/

/-- The number of the call `k` when the call `i` was never made. -/
def skip (i k : Nat) : Nat := if i < k then k - 1 else k

lemma skip_of_le {i k : Nat} (h : k ≤ i) : skip i k = k := if_neg (Nat.not_lt.mpr h)

/-- The system as it is if the call `i` was never made. -/
def System.without (s : System σ) (i : Nat) : System σ where
  world := s.world
  threads := s.threads.eraseIdx i
  device := s.device
  history := s.history.map fun (k, e) => (skip i k, e)

@[simp] lemma without_world (i : Nat) : (s.without i).world = s.world := rfl

lemma getElem?_without {i k : Nat} (ne : k ≠ i) :
    (s.without i).threads[skip i k]? = s.threads[k]? := by
  simp only [System.without, skip, List.getElem?_eraseIdx]
  split
  · rw [if_neg (by omega), Nat.sub_add_cancel (by omega)]
  · rw [if_pos (by omega)]

lemma set_without {i k : Nat} (ne : k ≠ i) (thread : Thread) :
    (s.threads.set k thread).eraseIdx i = (s.without i).threads.set (skip i k) thread := by
  simp only [System.without, skip]
  split
  · exact List.eraseIdx_set_lt ‹_›
  · exact List.eraseIdx_set_gt (by omega)

lemma moved_without {i k : Nat} (ne : k ≠ i) (call : Call) (p : Point) (w : World) (st : Status) :
    (s.moved k call p w st).without i = (s.without i).moved (skip i k) call p w st := by
  have hthreads := set_without (s := s) ne ⟨call, st⟩
  cases he : Event.of? s.world p w st <;>
    simp_all [System.moved, System.without]

lemma answered_without {i k : Nat} (ne : k ≠ i) (call : Call) (p : Point) (e : Effect) (a : Answer)
    (d : σ) (files : FileSystem) : (s.answered k call p e a d files).without i =
      (s.without i).answered (skip i k) call p e a d files := by
  have hthreads := set_without (s := s) ne ⟨call, .running (p.resume a)⟩
  simp_all [System.answered, System.without]

lemma woken_without {i k : Nat} (ne : k ≠ i) (thread : Thread) :
    System.without { s with threads := s.threads.set k thread } i =
      { s.without i with threads := (s.without i).threads.set (skip i k) thread } := by
  have hthreads := set_without (s := s) ne thread
  simp_all [System.without]

lemma start_without {i : Nat} (h : i < s.threads.length) (next : Call) :
    (s.start next).without i = (s.without i).start next := by
  simp [System.start, System.without, List.eraseIdx_append_of_lt_length h]

/-- A call that was not made yet is not missed. -/
lemma without_of_length_le {i : Nat} (made : s.Made) (h : s.threads.length ≤ i) :
    s.without i = s := by
  have hhistory : s.history.map (fun (k, e) => (skip i k, e)) = s.history := by
    refine (List.map_congr_left fun (k, e) he => ?_).trans (List.map_id _)
    have := made k e he
    show (skip i k, e) = (k, e)
    rw [skip_of_le (by omega)]
  obtain ⟨w, threads, d, history⟩ := s
  simp_all [System.without, List.eraseIdx_of_length_le]

lemma start_without_last (made : s.Made) (next : Call) :
    (s.start next).without s.threads.length = s := by
  have hs := without_of_length_le made (Nat.le_refl _)
  obtain ⟨w, threads, d, history⟩ := s
  simp_all [System.start, System.without, List.eraseIdx_append_of_length_le]

/-- Which calls are made does not depend on whether this one was. -/
def Surroundings.Overlooks (around : Surroundings σ) (call : Call) : Prop :=
  ∀ (threads : List Thread) (i : Nat) (status : Status) (next : Call),
    threads[i]? = some ⟨call, status⟩ →
      (around.starts (threads.eraseIdx i) next ↔ around.starts threads next)

/-- The call `i` has done nothing so far, or was refused at once. -/
structure System.Unseen (s : System σ) (i : Nat) (call : Call) : Prop where
  stands : ∀ thread, s.threads[i]? = some thread →
    thread = ⟨call, .running (.entry call)⟩ ∨ ∃ r, thread = ⟨call, .returned r⟩
  silent : ∀ e, (i, e) ∉ s.history

lemma Goes.not_entry {w w' : World} {p : Point} {call : Call} :
    ¬ Goes setup w p w' (.running (.entry call)) := by
  intro h
  generalize hst : Status.running (.entry call) = st at h
  cases h with
  | request h =>
    cases h with
    | refused code => cases hst
    | accepted known name free goes => obtain ⟨-, rfl⟩ | rfl := goes <;> cases hst
  | data h =>
    cases h with
    | finished takes delivery write final synced =>
      generalize ActiveUpdate.target _ = target at hst
      cases target <;> cases hst
    | _ => cases hst
  | cancel h => cases h <;> cases hst
  | reset h =>
    cases h with
    | refused decision unscheduled => cases hst
    | begun done path =>
      generalize w.controller.outcome = outcome at path
      cases path <;> cases hst
  | inside wraps h => cases wraps <;> cases hst
  | _ => cases hst

/-- A call that returns from its first step and tells nothing leaves the world alone. -/
lemma Goes.eq_of_refused {w w' : World} {call : Call} {r : Reply}
    (h : Goes setup w (.entry call) w' (.returned r))
    (silent : Event.of? w (.entry call) w' (.returned r) = none) : w' = w := by
  generalize hp : Point.entry call = p at h
  cases h with
  | request h =>
    cases h
    rfl
  | data h =>
    cases hp
    cases h with
    | refused code => rfl
    | written takes delivery write more => simp [Event.of?] at silent
  | cancel h =>
    cases hp
    cases h with
    | ignored => rfl
    | early open_ none =>
      rcases open_ with hstate | hstate <;> simp [Event.of?, hstate] at silent
    | late late => rcases late with hstate | hstate <;> simp [Event.of?, hstate] at silent
  | reset h =>
    cases h
    rfl
  | _ => cases hp

/-- What an unseen call does itself changes nothing. -/
lemma System.Unseen.moved_eq {i : Nat} {call next : Call} {p : Point} {w : World} {st : Status}
    (before : s.Unseen i call) (here : s.threads[i]? = some ⟨next, .running p⟩)
    (goes : Goes setup s.world p w st) (after : (s.moved i next p w st).Unseen i call) :
    (s.moved i next p w st).without i = s.without i := by
  have hthere : (s.moved i next p w st).threads[i]? = some ⟨next, st⟩ := by
    simp [System.moved, getElem?_set_here here]
  have hsilent : Event.of? s.world p w st = none := by
    by_contra hne
    obtain ⟨e, he⟩ := Option.ne_none_iff_exists'.mp hne
    exact after.silent e (moved_logs he)
  obtain ⟨rfl, rfl⟩ : next = call ∧ p = .entry call := by
    obtain heq | ⟨r, heq⟩ := before.stands _ here
    · simpa using heq
    · simp at heq
  obtain heq | ⟨r, heq⟩ := after.stands _ hthere
  · obtain rfl : st = .running (.entry next) := by simpa using heq
    exact absurd goes Goes.not_entry
  · obtain rfl : st = .returned r := by simpa using heq
    obtain rfl := goes.eq_of_refused hsilent
    simp [System.moved, System.without, hsilent, List.eraseIdx_set_eq]

/-- A step with an unseen call is a step without it, or no step at all. -/
lemma Step.without (step : Step setup around s t) (made : s.Made) {i : Nat} {call : Call}
    (overlooks : around.Overlooks call) (before : s.Unseen i call) (after : t.Unseen i call) :
    Step setup around (s.without i) (t.without i) ∨ t.without i = s.without i := by
  cases step with
  | @start next may =>
    rcases Nat.lt_trichotomy i s.threads.length with hlt | rfl | hgt
    · have hstarts : around.starts (s.without i).threads next := by
        obtain hthread | ⟨r, hthread⟩ := before.stands _ (List.getElem?_eq_getElem hlt)
        · exact (overlooks _ i _ next (by rw [List.getElem?_eq_getElem hlt, hthread])).mpr may
        · exact (overlooks _ i _ next (by rw [List.getElem?_eq_getElem hlt, hthread])).mpr may
      exact .inl (start_without hlt next ▸ .start hstarts)
    · exact .inr (by rw [start_without_last made, without_of_length_le made (Nat.le_refl _)])
    · have hstep : Step setup around s (s.start next) := .start may
      have hmade : (s.start next).Made := hstep.made made
      rw [without_of_length_le made (Nat.le_of_lt hgt),
        without_of_length_le hmade (by simp [System.start]; omega)]
      exact .inl (.start may)
  | @move k next p w st here goes =>
    by_cases hki : k = i
    · subst hki
      exact .inr (before.moved_eq here (goes_of_move goes) after)
    · rw [moved_without hki]
      exact .inl (.move (by rwa [getElem?_without hki]) goes)
  | @answer k next p e a d files here asks gets =>
    by_cases hki : k = i
    · exact absurd (hki ▸ List.mem_cons_self) (after.silent (.performed e a))
    · rw [answered_without hki]
      exact .inl (.answer (by rwa [getElem?_without hki]) asks gets)
  | @wake k next p here waits =>
    by_cases hki : k = i
    · subst hki
      exact .inr (by simp [System.without, List.eraseIdx_set_eq])
    · rw [woken_without hki]
      exact .inl (.wake (by rwa [getElem?_without hki]) waits)
  | engine goes => exact .inl (.engine goes)
  | drift goes => exact .inl (.drift goes)

/-- A step that the system takes without a call is one that it takes with it. -/
lemma Step.insert {i : Nat} {call : Call} {r : Reply} {v : System σ}
    (step : Step setup around (s.without i) v) (overlooks : around.Overlooks call)
    (returned : s.threads[i]? = some ⟨call, .returned r⟩) :
    ∃ t, Step setup around s t ∧ t.without i = v := by
  have hlt := (List.getElem?_eq_some_iff.mp returned).1
  -- the number of a call when the call `i` is there as well
  have hback {k : Nat} {thread : Thread} (here : (s.without i).threads[k]? = some thread) :
      ∃ j, j ≠ i ∧ k = skip i j ∧ s.threads[j]? = some thread := by
    simp only [System.without, List.getElem?_eraseIdx] at here
    rcases Nat.lt_or_ge k i with hki | hki
    · exact ⟨k, by omega, (skip_of_le (by omega)).symm, by rwa [if_pos hki] at here⟩
    · exact ⟨k + 1, by omega, by simp [skip, Nat.lt_succ_of_le hki],
        by rwa [if_neg (by omega)] at here⟩
  cases step with
  | @start next may =>
    exact ⟨_, .start ((overlooks _ i _ next returned).mp may), start_without hlt next⟩
  | move here goes =>
    obtain ⟨j, hji, rfl, hj⟩ := hback here
    exact ⟨_, .move hj goes, moved_without hji _ _ _ _⟩
  | answer here asks gets =>
    obtain ⟨j, hji, rfl, hj⟩ := hback here
    exact ⟨_, .answer hj asks gets, answered_without hji _ _ _ _ _ _⟩
  | wake here waits =>
    obtain ⟨j, hji, rfl, hj⟩ := hback here
    exact ⟨_, .wake hj waits, woken_without hji _⟩
  | engine goes => exact ⟨_, .engine goes, rfl⟩
  | drift goes => exact ⟨_, .drift goes, rfl⟩

/-- A call that has returned does nothing more. -/
lemma Step.returned (step : Step setup around s t) {i : Nat} {call : Call} {r : Reply}
    (returned : s.threads[i]? = some ⟨call, .returned r⟩) :
    t.threads[i]? = some ⟨call, .returned r⟩ ∧ ∀ e, (i, e) ∈ t.history → (i, e) ∈ s.history := by
  have hother {k : Nat} {next : Call} {p : Point}
      (here : s.threads[k]? = some ⟨next, .running p⟩) : k ≠ i := by
    rintro rfl
    simp [here] at returned
  have hset {k : Nat} (ne : k ≠ i) (thread : Thread) :
      (s.threads.set k thread)[i]? = some ⟨call, .returned r⟩ := by
    rw [List.getElem?_set_ne ne, returned]
  cases step with
  | start may =>
    refine ⟨?_, fun e he => he⟩
    rw [System.start, List.getElem?_append_left (List.getElem?_eq_some_iff.mp returned).1, returned]
  | move here goes =>
    refine ⟨hset (hother here) _, fun e he => ?_⟩
    exact (mem_moved.mp he).resolve_left fun hnew => hother here hnew.1.symm
  | answer here asks gets =>
    refine ⟨hset (hother here) _, fun e he => ?_⟩
    exact (List.mem_cons.mp he).resolve_left fun heq => hother here (Prod.mk.inj heq).1.symm
  | wake here waits => exact ⟨hset (hother here) _, fun e he => he⟩
  | engine goes => exact ⟨returned, fun e he => he⟩
  | drift goes => exact ⟨returned, fun e he => he⟩

lemma Step.unseen (step : Step setup around s t) {i : Nat} {call : Call} {r : Reply}
    (returned : s.threads[i]? = some ⟨call, .returned r⟩) (unseen : s.Unseen i call) :
    t.Unseen i call := by
  obtain ⟨hthread, hsilent⟩ := step.returned returned
  refine ⟨fun thread h => .inr ⟨r, ?_⟩, fun e he => unseen.silent e (hsilent e he)⟩
  exact Option.some.inj (h.symm.trans hthread)

/-- With a call that was refused and without it the system goes through the same runs. -/
theorem Run.without_iff {i : Nat} {call : Call} {r : Reply} {v : System σ} (made : s.Made)
    (overlooks : around.Overlooks call) (returned : s.threads[i]? = some ⟨call, .returned r⟩)
    (unseen : s.Unseen i call) : Run setup around (s.without i) v ↔
      ∃ t, Run setup around s t ∧ t.without i = v := by
  constructor
  · intro run
    suffices h : ∃ t, (Run setup around s t ∧ t.without i = v) ∧
        t.threads[i]? = some ⟨call, .returned r⟩ from h.imp fun t ht => ht.1
    induction run with
    | refl => exact ⟨s, ⟨.refl, rfl⟩, returned⟩
    | tail _ step ih =>
      obtain ⟨t, ⟨hrun, rfl⟩, ht⟩ := ih
      obtain ⟨t', hstep, rfl⟩ := step.insert overlooks ht
      exact ⟨t', ⟨hrun.tail hstep, rfl⟩, (hstep.returned ht).1⟩
  · rintro ⟨t, run, rfl⟩
    suffices h : Run setup around (s.without i) (t.without i) ∧ t.Made ∧ t.Unseen i call ∧
        t.threads[i]? = some ⟨call, .returned r⟩ from h.1
    induction run with
    | refl => exact ⟨.refl, made, unseen, returned⟩
    | tail _ step ih =>
      obtain ⟨hrun, hmade, hunseen, hreturned⟩ := ih
      have hafter := step.unseen hreturned hunseen
      refine ⟨?_, step.made hmade, hafter, (step.returned hreturned).1⟩
      rcases step.without hmade overlooks hunseen hafter with hstep | heq
      · exact hrun.tail hstep
      · rwa [heq]

/-! ### Before its first step -/

/-- A call that stands at its entry, or was not made yet. -/
def System.Waits (s : System σ) (i : Nat) (call : Call) : Prop :=
  ∀ thread, s.threads[i]? = some thread → thread = ⟨call, .running (.entry call)⟩

/-- The first step of a call is never held up. -/
lemma exists_result_of_entry (setup : Setup) (w : World) (call : Call) :
    ∃ w' st, (Point.move setup w (.entry call)).result? = some (w', st) := by
  cases call with
  | request number file size =>
    simp only [Point.move, enterRequest]
    repeat' split
    all_goals exact ⟨_, _, rfl⟩
  | data number offset chunk last =>
    simp only [Point.move, enterData, writeChunk]
    repeat' split
    all_goals exact ⟨_, _, rfl⟩
  | cancel number reason =>
    simp only [Point.move, enterCancel]
    repeat' split
    all_goals exact ⟨_, _, rfl⟩
  | reset number version =>
    simp only [Point.move, enterReset]
    split <;> exact ⟨_, _, rfl⟩
  | bootLayout => exact ⟨_, _, rfl⟩

/-- A call that has not begun was never further. -/
lemma Step.waits_back (step : Step setup around s t) {i : Nat} {call : Call}
    (waits : t.Waits i call) :
    s.Waits i call ∧ ∀ e, (i, e) ∈ t.history → (i, e) ∈ s.history := by
  -- the call `i` itself does not get to its entry
  have hother {k : Nat} {thread new : Thread} (here : s.threads[k]? = some thread)
      (after : ∀ th, (s.threads.set k new)[i]? = some th → th = ⟨call, .running (.entry call)⟩)
      (ne : new ≠ ⟨call, .running (.entry call)⟩) : k ≠ i ∧ s.Waits i call := by
    have hki : k ≠ i := by
      rintro rfl
      refine ne (after new ?_)
      rw [getElem?_set_here here]
    refine ⟨hki, fun th hth => after th ?_⟩
    rwa [List.getElem?_set_ne hki]
  cases step with
  | @start next may =>
    refine ⟨fun thread h => waits thread ?_, fun e he => he⟩
    rw [System.start, List.getElem?_append_left (List.getElem?_eq_some_iff.mp h).1, h]
  | @move k next p w st here goes =>
    have hne : (⟨next, st⟩ : Thread) ≠ ⟨call, .running (.entry call)⟩ := by
      intro heq
      obtain ⟨rfl, rfl⟩ := Thread.mk.inj heq
      exact absurd (goes_of_move goes) Goes.not_entry
    obtain ⟨hki, hs⟩ := hother here waits hne
    exact ⟨hs, fun e he => (mem_moved.mp he).resolve_left fun hnew => hki hnew.1.symm⟩
  | @answer k next p e a d files here asks gets =>
    have hne : (⟨next, .running (p.resume a)⟩ : Thread) ≠ ⟨call, .running (.entry call)⟩ := by
      intro heq
      obtain ⟨rfl, heq⟩ := Thread.mk.inj heq
      cases p with
      | entry other => exact entry_ne_effect other e asks
      | starting g target stream request => cases a <;> simp [Point.resume] at heq
      | _ => simp [Point.resume] at heq
    obtain ⟨hki, hs⟩ := hother here waits hne
    exact ⟨hs, fun e he => (List.mem_cons.mp he).resolve_left fun heq =>
      hki (Prod.mk.inj heq).1.symm⟩
  | @wake k next p here hwaits =>
    have hne : (⟨next, .running p.wake⟩ : Thread) ≠ ⟨call, .running (.entry call)⟩ := by
      intro heq
      obtain ⟨rfl, heq⟩ := Thread.mk.inj heq
      cases p with
      | entry other =>
        obtain ⟨w', st, hresult⟩ := exists_result_of_entry setup s.world other
        simp [hwaits] at hresult
      | _ => simp [Point.wake] at heq
    exact ⟨(hother here waits hne).2, fun e he => he⟩
  | engine goes => exact ⟨waits, fun e he => he⟩
  | drift goes => exact ⟨waits, fun e he => he⟩

/-- A call that has not begun is not missed in the run so far. -/
theorem Run.without {w : World} {d : σ} (run : Run setup around (System.fresh w d) s) {i : Nat}
    {call : Call} (overlooks : around.Overlooks call) (waits : s.Waits i call) :
    Run setup around (System.fresh w d) (s.without i) ∧ s.Unseen i call ∧ s.Made := by
  induction run with
  | refl => exact ⟨.refl, ⟨fun thread h => by simp [System.fresh] at h, by simp [System.fresh]⟩,
      by simp [System.Made, System.fresh]⟩
  | @tail u v _ step ih =>
    obtain ⟨hwaits, hsilent⟩ := step.waits_back waits
    obtain ⟨hrun, hunseen, hmade⟩ := ih hwaits
    have hafter : v.Unseen i call :=
      ⟨fun thread h => .inl (waits thread h), fun e he => hunseen.silent e (hsilent e he)⟩
    refine ⟨?_, hafter, step.made hmade⟩
    rcases step.without hmade overlooks hunseen hafter with hstep | heq
    · exact hrun.tail hstep
    · rwa [heq]

/-- A call that returns from its first step and changes nothing goes by unseen. -/
theorem Run.unseen {w : World} {d : σ} (run : Run setup around (System.fresh w d) s) {i : Nat}
    {call : Call} {r : Reply} (overlooks : around.Overlooks call)
    (here : s.threads[i]? = some ⟨call, .running (.entry call)⟩)
    (refused : t = s.replied i call r) :
    Run setup around (System.fresh w d) (s.without i) ∧
      ∀ v, Run setup around (s.without i) v ↔ ∃ u, Run setup around t u ∧ u.without i = v := by
  have hwaits : s.Waits i call := fun thread h => Option.some.inj (h.symm.trans here)
  obtain ⟨hrun, hunseen, hmade⟩ := run.without overlooks hwaits
  have hreturned : t.threads[i]? = some ⟨call, .returned r⟩ := by
    rw [refused]
    exact getElem?_set_here here
  have hunseen' : t.Unseen i call := by
    refine ⟨fun thread h => .inr ⟨r, Option.some.inj (h.symm.trans hreturned)⟩, ?_⟩
    rw [refused]
    exact hunseen.silent
  have hmade' : t.Made := by
    rw [refused]
    exact fun k e he => by simpa [System.replied] using hmade k e he
  have hwithout : t.without i = s.without i := by
    simp [refused, System.replied, System.without, List.eraseIdx_set_eq]
  exact ⟨hrun, fun v => hwithout ▸ Run.without_iff hmade' overlooks hreturned hunseen'⟩

/-! ### A cancel that names another target -/

/-- A cancel that names no target of the active update is ignored while the update takes data, and
gives the update up at any other time. -/
lemma enterCancel_of_foreign {w : World} {number : Nat}
    (progress : w.controller.state.isOpen ∨ w.controller.state.isLate)
    (foreign : ∀ u, w.controller.active = some u → u.target.number ≠ number) :
    TakesData w.controller ∧ enterCancel w number = .reply w .cancelled ∨
      ¬ TakesData w.controller ∧ ∃ st, (enterCancel w number).result? =
        some ({ w with controller := { w.controller with state := .cancelled } }, st) := by
  cases hactive : w.controller.active with
  | none =>
    right
    refine ⟨by simp [TakesData, hactive], ?_⟩
    obtain (hs | hs) | hs | hs := progress <;> simp [enterCancel, hs, hactive]
  | some u =>
    have hne := foreign u hactive
    rcases progress with hopen | hlate
    · left
      refine ⟨⟨hopen, by simp [hactive]⟩, ?_⟩
      rcases hopen with hs | hs <;> simp [enterCancel, hs, hactive, hne]
    · right
      refine ⟨?_, ?_⟩
      · rcases hlate with hs | hs <;> simp [TakesData, SessionState.isOpen, hs]
      · obtain ⟨target, received, delivery⟩ := u
        rcases hlate with hs | hs <;> cases delivery <;> simp [enterCancel, hs, hactive]

/-- A cancel is made while the update for one target is under way, and names another target, or
none. It leaves everything as it is exactly if the update takes data, and else gives the update up.
If it leaves everything as it is, the run so far and all that follows is as if it had not been
made. -/
theorem foreign_cancel_ignored_iff {files : FileSystem} {layout : Option BootLayout} {w : World}
    {d : σ} (built : setup.build files layout = .ok w)
    (run : Run setup around (System.fresh w d) s) {i number : Nat} {reason : CancelReason}
    {target : Target}
    (here : s.threads[i]? =
      some ⟨.cancel number reason, .running (.entry (.cancel number reason))⟩)
    (progress : s.world.controller.state.isOpen ∨ s.world.controller.state.isLate)
    (accepted : s.Accepted s.world.controller.generation target)
    (other : number ≠ target.number) :
    ∃ t, s.Moves setup t i (.cancel number reason) (.entry (.cancel number reason)) ∧
      (t.world = s.world ↔ TakesData s.world.controller) ∧
      (t.world ≠ s.world →
        t.world.controller = { s.world.controller with state := .cancelled }) ∧
      (t.world = s.world →
        t = s.replied i (.cancel number reason) .cancelled ∧
        (around.Overlooks (.cancel number reason) →
          Run setup around (System.fresh w d) (s.without i) ∧
          ∀ v, Run setup around (s.without i) v ↔
            ∃ u, Run setup around t u ∧ u.without i = v)) := by
  have hfresh := grounded_fresh w d (build_controller built)
  obtain ⟨hgrounded, hnumbered⟩ : Grounded s ∧ Numbered s :=
    run.keeps (P := fun u => Grounded u ∧ Numbered u) ⟨hfresh, numbered_fresh w d⟩
      fun hu step => ⟨hu.1.step step, hu.2.step step⟩
  have hforeign (u : ActiveUpdate) (hu : s.world.controller.active = some u) :
      u.target.number ≠ number := by
    rw [hnumbered.target (hgrounded.backs.active u hu) accepted]
    exact other.symm
  have hstate : s.world.controller.state ≠ .cancelled := by
    rcases progress with (hs | hs) | hs | hs <;> simp [hs]
  rcases enterCancel_of_foreign progress hforeign with ⟨htakes, heq⟩ | ⟨hnot, st, hresult⟩
  · have hmoved : s.moved i (.cancel number reason) (.entry (.cancel number reason)) s.world
        (.returned .cancelled) = s.replied i (.cancel number reason) .cancelled := by
      simp [System.moved, System.replied, Event.of?, hstate]
    refine ⟨_, ⟨here, s.world, .returned .cancelled, by rw [Point.move, heq]; rfl, rfl⟩,
      ⟨fun _ => htakes, fun _ => rfl⟩, fun hne => absurd rfl hne, fun _ => ⟨hmoved, ?_⟩⟩
    intro overlooks
    rw [hmoved]
    exact run.unseen overlooks here rfl
  · have hne : s.world ≠
        { s.world with controller := { s.world.controller with state := .cancelled } } := by
      intro heq
      exact hstate (congrArg (fun v => v.controller.state) heq)
    exact ⟨_, ⟨here, _, st, hresult, rfl⟩,
      ⟨fun heq => absurd heq.symm hne, fun htakes => absurd htakes hnot⟩, fun _ => rfl,
      fun heq => absurd heq.symm hne⟩

end

/-! ### Two runs -/

namespace Small

/-- An update takes data, and somebody cancels another one. -/
def receiving : List Choice :=
  [.start (.request 0 "image.swu" 2), .go 0, .go 0, .go 0, .go 0,
    .start (.data 0 0 [7] false), .go 1, .start (.cancel 1 .userAbort)]

/-- An update is installed, and somebody cancels one that does not exist. -/
def installing : List Choice :=
  [.start (.request 0 "image.swu" 1), .go 0, .go 0, .go 0, .go 0,
    .start (.data 0 0 [7] true), .go 1, .go 1, .start (.cancel 7 .userAbort)]

def beforeIgnored : System Unit := (freely? (fresh .dual) receiving).getD (fresh .dual)

def beforeObeyed : System Unit := (freely? (fresh .dual) installing).getD (fresh .dual)

lemma run_beforeIgnored : Run setup (.free answers) (fresh .dual) beforeIgnored :=
  run_of_freely (rfl : freely? (fresh .dual) receiving = some beforeIgnored)

lemma run_beforeObeyed : Run setup (.free answers) (fresh .dual) beforeObeyed :=
  run_of_freely (rfl : freely? (fresh .dual) installing = some beforeObeyed)

end Small

theorem foreign_cancel_of_receiving_ignored :
    ∃ t, Small.beforeIgnored.Moves Small.setup t 2 (.cancel 1 .userAbort)
        (.entry (.cancel 1 .userAbort)) ∧ t.world = Small.beforeIgnored.world ∧
      ∀ v, Run Small.setup (.free Small.answers) (Small.beforeIgnored.without 2) v ↔
        ∃ u, Run Small.setup (.free Small.answers) t u ∧ u.without 2 = v := by
  have hbuilt : Small.setup.build Small.files (some .dual) = .ok (Small.world .dual) := rfl
  have haccepted : Small.beforeIgnored.Accepted 1 .system :=
    ⟨"image.swu", 0, List.mem_of_getElem? (i := 2) rfl⟩
  obtain ⟨t, hmoves, hiff, -, hunseen⟩ := foreign_cancel_ignored_iff hbuilt
    Small.run_beforeIgnored (i := 2) rfl (.inl (.inr rfl)) haccepted (by decide)
  have hworld : t.world = Small.beforeIgnored.world := hiff.mpr ⟨.inr rfl, rfl⟩
  exact ⟨t, hmoves, hworld, ((hunseen hworld).2 fun _ _ _ _ _ => Iff.rfl).2⟩

/-- A cancel for a number that is no target gives up the update that is being installed. -/
theorem foreign_cancel_stops_install :
    Run Small.setup (.free Small.answers) (Small.fresh .dual) Small.beforeObeyed ∧
      Small.beforeObeyed.Accepted 1 .system ∧
      Small.beforeObeyed.world.controller.generation = 1 ∧
      Small.beforeObeyed.world.controller.state = .installing ∧ 7 ≠ Target.number .system ∧
      (Small.beforeObeyed.go? Small.setup Small.answers 2).map (·.world.controller.state) =
        some .cancelled :=
  ⟨Small.run_beforeObeyed, ⟨"image.swu", 0, List.mem_of_getElem? (i := 3) rfl⟩, rfl, rfl,
    by decide, rfl⟩

end DeviceUpdate.Session
