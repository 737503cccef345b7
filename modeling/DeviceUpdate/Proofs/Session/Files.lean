import DeviceUpdate.Proofs.Path
import DeviceUpdate.Proofs.Session.Cleanup
import DeviceUpdate.Proofs.Session.Effects

/-!
# Who changes the files

While an update is under way only the call that it rests on changes files, and the calls that bring
its chunks, if no request is accepted before the cleanup of the update before is done.
-/

namespace DeviceUpdate.Session

variable {σ : Type} {setup : Setup} {around : Surroundings σ} {s t : System σ}

/-- Only calls change files: neither what answers their effects nor anything else does. -/
structure Surroundings.KeepsFiles (around : Surroundings σ) : Prop where
  answers : ∀ e d files a d' files', around.answers e d files a d' files' → files' = files
  drifts : ∀ d files d' files', around.drifts d files d' files' → files' = files

/-- Files are kept if the device answers as a function that keeps them, and nothing drifts. -/
lemma Surroundings.keepsFiles_of_answers {answers : Answers σ}
    (function : ∀ e d files a d' files', around.answers e d files a d' files' →
      (a, d', files') = answers e d files) (kept : ∀ e d files, (answers e d files).2.2 = files)
    (still : ∀ d files d' files', ¬ around.drifts d files d' files') : around.KeepsFiles := by
  constructor
  · intro e d files a d' files' h
    rw [← kept e d files, ← function e d files a d' files' h]
  · intro d files d' files' h
    exact absurd h (still d files d' files')

/-- Chunks come one after another, or nobody resets. -/
def Surroundings.Fair (around : Surroundings σ) : Prop := around.OneSender ∨ around.NeverResets

/-- No request is accepted while a call still has cleanup to do. -/
def Patient (s t : System σ) : Prop :=
  s.Exposed → t.world.controller.generation = s.world.controller.generation

/-- Any number of steps in which no request is accepted too early. -/
abbrev PatientRun (setup : Setup) (around : Surroundings σ) : System σ → System σ → Prop :=
  Relation.ReflTransGen fun s t => Step setup around s t ∧ Patient s t

lemma not_slash_of_acceptable {name : String} (h : acceptableFileName name) :
    '/' ∉ name.toList := by
  simp only [acceptableFileName, Bool.and_eq_true] at h
  exact Path.not_slash_of_isPlain h.2

/-! ### Which steps change files -/

/-- A call in this role may change files. -/
def Role.Edits (c : Controller) : Role → Prop
  | .setup _ | .undo _ | .staged _ _ => True
  | .entering call => call.sends ∧ c.state.isOpen ∧ c.active.isSome
  | _ => False

/-- A call that changes files has the role for it, or is left with nothing but cleanup. -/
lemma Goes.edits {w w' : World} {p : Point} {st : Status} (h : Goes setup w p w' st)
    (stays : p.Only Effect.Stays) : w'.files = w.files ∨ p.role.Edits w.controller ∨
      p.cleans ∧ p.role = .free := by
  have htakes {number offset : Nat} {chunk : Bytes} {last : Bool} {u : ActiveUpdate}
      (takes : Takes w.controller number offset u) :
      (Role.entering (.data number offset chunk last)).Edits w.controller :=
    ⟨rfl, takes.open_, by rw [takes.active]; rfl⟩
  cases h with
  | request h =>
    left
    cases h <;> rfl
  | data h =>
    cases h with
    | refused code => exact .inl rfl
    | failed code takes delivery kept => exact .inr (.inl (htakes takes))
    | written takes delivery write more => exact .inr (.inl (htakes takes))
    | finished takes delivery write final synced => exact .inr (.inl (htakes takes))
    | pushed takes delivery => exact .inl rfl
  | cancel h =>
    left
    cases h <;> rfl
  | reset h =>
    left
    cases h <;> rfl
  | inside wraps h =>
    left
    cases wraps <;> exact Procedure.Only.looks stays h
  | created create => exact .inr (.inl trivial)
  | discardedFile => exact .inr (.inl trivial)
  | assembled assembles => exact .inr (.inl trivial)
  | manifestRemoved => exact .inr (.inl trivial)
  | notAssembled => exact .inr (.inl trivial)
  | dropped => exact .inr (.inl trivial)
  | used other => exact .inr (.inl trivial)
  | removed => exact .inr (.inr ⟨rfl, rfl⟩)
  | _ => exact .inl rfl

lemma Quiet.files_eq (h : Quiet around s t) (keeps : around.KeepsFiles) :
    t.world.files = s.world.files := by
  rcases h.files with hsame | ⟨e, a, hanswer⟩ | hdrift
  · exact hsame
  · exact keeps.answers _ _ _ _ _ _ hanswer
  · exact keeps.drifts _ _ _ _ hdrift

/-! ### No cleanup of the update before -/

/-- While an update is under way no call is left with nothing but cleanup. -/
def Clear (s : System σ) : Prop :=
  s.All fun _ _ p => p.cleans → p.role = .free → ¬ s.world.controller.state.isBusy

/-- What is known of a system in which the update rests on one call. -/
structure Steady (s : System σ) : Prop where
  owned : Owned s.world.controller s.role
  serving : s.Serving
  stays : s.Stays
  clear : Clear s

lemma Steady.fits (h : Steady s) {i : Nat} {call : Call} {p : Point}
    (here : s.threads[i]? = some ⟨call, .running p⟩) : p.role.Fits s.world.controller :=
  h.owned.fits_here here

lemma Steady.fresh (w : World) (d : σ) : Steady (System.fresh w d) :=
  ⟨(orderly_fresh w d).owned, System.all_fresh w d, System.all_fresh w d, System.all_fresh w d⟩

lemma Clear.step (h : Steady s) (step : Step setup around s t) (patient : Patient s t) :
    Clear t := by
  -- a call that is left with cleanup keeps the next request out
  have hstill {i : Nat} {call : Call} {p : Point}
      (here : s.threads[i]? = some ⟨call, .running p⟩) (hcleans : p.cleans)
      (hidle : ¬ s.world.controller.state.isBusy) : ¬ t.world.controller.state.isBusy := by
    intro hbusy
    obtain ⟨call', -, hc, -⟩ | ⟨j, r, hc, -⟩ := step.control
    · rw [hc] at hbusy
      exact hidle hbusy
    · rcases hc.busy (h.owned.fits j) hbusy with hb | ⟨hfree, hgeneration⟩
      · exact hidle hb
      · have hsame := patient ⟨hfree, i, call, p, here, hcleans⟩
        omega
  refine System.All.step h.clear step ?_ ?_ ?_ ?_ ?_
  · intro i call p here _ hp hcleans hfree
    exact hstill here hcleans (hp hcleans hfree)
  · intro call _ hcleans
    simp [Point.cleans] at hcleans
  · rintro i call p w p' here goes rfl hp hcleans hfree
    rcases goes.freed hcleans hfree with ⟨hcleans', hfree', hc⟩ | ⟨e, hlog, hlate⟩
    · exact hstill here hcleans' (hp hcleans' hfree')
    · have hends := (goes.tells hlog).ends_early hlate (h.fits here) (h.serving i call p here)
      exact not_busy_of_idle hends.1
  · intro i call p a hp hcleans hfree
    exact hp (cleans_of_resume hcleans) (by rwa [resume_role] at hfree)
  · intro i call p hp hcleans hfree
    exact hp (cleans_of_wake hcleans) (by rwa [wake_role] at hfree)

/-- Every patient step keeps a system steady in which no chunk fails during a reset. -/
theorem Steady.step (h : Steady s) (step : Step setup around s t) (patient : Patient s t)
    (calm : ∀ i, ¬ (s.role i).Disturbs s.world.controller) : Steady t := by
  refine ⟨step.owned h.owned ?_, step.serving h.serving, step.stays h.stays,
    Clear.step h step patient⟩
  rintro i call p ⟨here, -⟩ -
  have hcalm := calm i
  rwa [role_of_getElem? here] at hcalm

/-! ### Fair surroundings -/

/-- Calls are in order, by the way that they are made. -/
def Ordered (around : Surroundings σ) (s : System σ) : Prop :=
  around.OneSender ∧ Orderly s ∨ around.NeverResets ∧ Resetless s

lemma Ordered.step (h : Ordered around s) (step : Step setup around s t) : Ordered around t := by
  rcases h with ⟨hone, horder⟩ | ⟨hnever, hresetless⟩
  · exact .inl ⟨hone, horder.step hone step⟩
  · exact .inr ⟨hnever, hresetless.step hnever step⟩

lemma Ordered.owned (h : Ordered around s) : Owned s.world.controller s.role := by
  rcases h with ⟨-, horder⟩ | ⟨-, hresetless⟩
  · exact horder.owned
  · exact hresetless.owned

lemma Ordered.calm (h : Ordered around s) (i : Nat) :
    ¬ (s.role i).Disturbs s.world.controller := by
  rcases h with ⟨-, horder⟩ | ⟨-, hresetless⟩
  · exact horder.calm i
  · exact hresetless.calm i

lemma steady_fresh (fair : around.Fair) (w : World) (d : σ) (hw : w.controller = {}) :
    Ordered around (System.fresh w d) ∧ Steady (System.fresh w d) := by
  refine ⟨?_, .fresh w d⟩
  rcases fair with hone | hnever
  · exact .inl ⟨hone, orderly_fresh w d⟩
  · exact .inr ⟨hnever, resetless_fresh w d hw⟩

/-- What holds of a steady system and is kept by patient steps holds after patient runs. -/
theorem PatientRun.keeps {P : System σ → Prop} (run : PatientRun setup around s t)
    (steady : Ordered around s ∧ Steady s) (start : P s)
    (step : ∀ {u v}, Steady u → P u → Step setup around u v → Patient u v → P v) :
    Steady t ∧ P t := by
  have hall : Ordered around t ∧ Steady t ∧ P t := by
    induction run with
    | refl => exact ⟨steady.1, steady.2, start⟩
    | tail _ h ih =>
      obtain ⟨horder, hsteady, hp⟩ := ih
      exact ⟨horder.step h.1, hsteady.step h.1 h.2 horder.calm, step hsteady hp h.1 h.2⟩
  exact hall.2

/-! ### One call after another -/

/-- No call is made while another is under way. -/
def Surroundings.InTurn (around : Surroundings σ) : Prop :=
  ∀ threads call, around.starts threads call → ∀ t ∈ threads, t.status.isRunning = false

lemma sequential_inTurn (answers : Answers σ) : (Surroundings.sequential answers).InTurn :=
  fun _ _ may => may

/-- The call `i` is under way. -/
def System.Running (s : System σ) (i : Nat) : Prop :=
  ∃ t, s.threads[i]? = some t ∧ t.status.isRunning

/-- At most one call is under way. -/
def System.Alone (s : System σ) : Prop := ∀ i j, s.Running i → s.Running j → i = j

lemma running_of_set {i j : Nat} {w : World} {d : σ} {h : List (Nat × Event)} {old new : Thread}
    (here : s.threads[i]? = some old) (running : old.status.isRunning)
    (hj : System.Running ⟨w, s.threads.set i new, d, h⟩ j) : s.Running j := by
  obtain ⟨thread, hthread, hrunning⟩ := hj
  rcases getElem?_set_cases hthread with ⟨rfl, -⟩ | ⟨-, hold⟩
  · exact ⟨old, here, running⟩
  · exact ⟨thread, hold, hrunning⟩

lemma System.Alone.step (inTurn : around.InTurn) (h : s.Alone) (step : Step setup around s t) :
    t.Alone := by
  cases step with
  | @start call may =>
    have hnew (i : Nat) (hi : (s.start call).Running i) : i = s.threads.length := by
      obtain ⟨thread, hthread, hrunning⟩ := hi
      rcases getElem?_concat_cases hthread with ⟨hlast, -⟩ | ⟨-, hold⟩
      · exact hlast
      · have hidle := inTurn _ _ may thread (List.mem_of_getElem? hold)
        rw [hidle] at hrunning
        cases hrunning
    intro i j hi hj
    rw [hnew i hi, hnew j hj]
  | move here goes =>
    exact fun i j hi hj => h i j (running_of_set here rfl hi) (running_of_set here rfl hj)
  | answer here asks gets =>
    exact fun i j hi hj => h i j (running_of_set here rfl hi) (running_of_set here rfl hj)
  | wake here waits =>
    exact fun i j hi hj => h i j (running_of_set here rfl hi) (running_of_set here rfl hj)
  | engine goes => exact h
  | drift goes => exact h

/-- The generation changes only in the first step of a request. -/
lemma Control.request {c c' : Controller} {r r' : Role} (h : Control r c r' c')
    (next : c'.generation ≠ c.generation) : ∃ call, r = .entering call ∧ call.isRequest := by
  cases h with
  | accept free => exact ⟨_, rfl, rfl⟩
  | setupFailed => grind [Controller.releaseIfCurrent, Controller.release]
  | released => grind [Controller.releaseIfCurrent, Controller.release]
  | pushFailed => grind [Controller.release]
  | conclude outcome => grind [Controller.conclude, Controller.release]
  | _ => exact absurd rfl next

lemma not_cleans_of_entering {p : Point} {call : Call} (h : p.role = .entering call) :
    p.cleans = false := by
  cases p with
  | entry | asking => rfl
  | stopping stream rest release reply => cases release <;> rfl
  | pushing | pushFailed | judging | setupFailed | releasing => rfl
  | swapping | planning | scheduling | resetting => rfl
  | concluding g outcome result otherwise =>
    cases hm : outcome.mode <;> simp [Point.role, Role.ofOutcome, hm] at h
  | _ => simp [Point.role] at h

/-- A request that comes after all other calls is accepted after all cleanup. -/
lemma System.Alone.patient (h : s.Alone) (step : Step setup around s t) : Patient s t := by
  rintro ⟨-, i, call, p, here, hcleans⟩
  by_contra hnext
  obtain hquiet | ⟨j, call', q, w, st, there, goes, rfl⟩ := step.quiet_or_goes
  · exact hnext (by rw [hquiet.controller])
  · obtain rfl : i = j := h i j ⟨_, here, rfl⟩ ⟨_, there, rfl⟩
    obtain ⟨rfl, rfl⟩ : call = call' ∧ p = q := by simpa [here] using there
    obtain ⟨call'', hrole, -⟩ := goes.control.request hnext
    rw [not_cleans_of_entering hrole] at hcleans
    cases hcleans

/-- If one call is made after another every run is patient. -/
theorem Run.patient (inTurn : around.InTurn) {w : World} {d : σ}
    (run : Run setup around (System.fresh w d) s) :
    PatientRun setup around (System.fresh w d) s := by
  have hboth : PatientRun setup around (System.fresh w d) s ∧ s.Alone := by
    induction run with
    | refl =>
      refine ⟨.refl, fun i j hi => ?_⟩
      obtain ⟨thread, hthread, -⟩ := hi
      simp [System.fresh] at hthread
    | tail _ step ih => exact ⟨ih.1.tail ⟨step, ih.2.patient step⟩, ih.2.step inTurn step⟩
  exact hboth.1

/-! ### Whose files they are -/

/-- The update rests on a call in this role, and its files do too. -/
def Role.Holds : Role → Prop
  | .setup _ | .staged _ _ => True
  | _ => False

lemma Role.busy_of_holds {c : Controller} {r : Role} (h : r.Holds) (fits : r.Fits c) :
    c.state.isBusy := by
  cases r with
  | setup g => grind [Role.Fits, SessionState.isBusy, SessionState.isOpen]
  | staged g stage =>
    cases stage <;>
      grind [Role.Fits, Stage.covers, SessionState.isBusy, SessionState.isLate]
  | _ => simp [Role.Holds] at h

/-- No other call changes files while the update rests on this one. -/
lemma Role.alone {c : Controller} {q r : Role} (h : q.Holds) (hq : q.Fits c) (hr : r.Fits c)
    (apart : ¬ r.Clashes q) : ¬ r.Edits c := by
  intro hedits
  cases q with
  | setup g =>
    cases r <;> grind [Role.Fits, Role.Edits, Role.Clashes]
  | staged g stage =>
    cases r <;> cases stage <;>
      grind [Role.Fits, Role.Edits, Role.Clashes, Stage.covers, SessionState.isOpen]
  | _ => simp [Role.Holds] at h

/-- While an update takes data, only the calls that bring it change files. -/
lemma Role.sends_of_edits {c : Controller} {r : Role} (h : r.Edits c) (hr : r.Fits c)
    (open_ : c.state.isOpen) (active : c.active.isSome) : ∃ call, r = .entering call := by
  cases r with
  | entering call => exact ⟨call, rfl⟩
  | setup g => grind [Role.Fits]
  | undo g => grind [Role.Fits]
  | staged g stage =>
    cases stage <;> grind [Role.Fits, Stage.covers, SessionState.isOpen]
  | _ => simp [Role.Edits] at h

/-- A call that has not touched the controller changes files only if it brings a chunk. -/
lemma Point.data_of_edits {c : Controller} {p : Point} {call : Call}
    (role : p.role = .entering call) (edits : p.role.Edits c) :
    ∃ number offset chunk last, p = .entry (.data number offset chunk last) := by
  rw [role] at edits
  rcases entry_of_entering role with rfl | rfl
  · cases call with
    | data number offset chunk last => exact ⟨number, offset, chunk, last, rfl⟩
    | _ => simp [Role.Edits, Call.sends] at edits
  · simp [Role.Edits, Call.sends] at edits

/-- The files of the update that rests on a call are not changed by another one. -/
lemma Steady.files_of_goes (h : Steady s) {i j : Nat} {call call' : Call} {p q : Point}
    {w : World} {st : Status} (here : s.threads[i]? = some ⟨call, .running p⟩)
    (holds : p.role.Holds) (ne : j ≠ i) (there : s.threads[j]? = some ⟨call', .running q⟩)
    (goes : Goes setup s.world q w st) : w.files = s.world.files := by
  have hfits := h.fits here
  rcases goes.edits (h.stays j call' q there) with hsame | hedits | ⟨hcleans, hfree⟩
  · exact hsame
  · have hapart := h.owned.apart j i ne
    rw [role_of_getElem? there, role_of_getElem? here] at hapart
    exact absurd hedits (Role.alone holds hfits (h.fits there) hapart)
  · exact absurd (Role.busy_of_holds holds hfits) (h.clear j call' q there hcleans hfree)

/-- So they change only when this call goes on. -/
lemma Steady.files_of_holds (h : Steady s) (keeps : around.KeepsFiles) {i : Nat}
    {call : Call} {p : Point} (here : s.threads[i]? = some ⟨call, .running p⟩)
    (holds : p.role.Holds) (beside : Beside setup around s i t) :
    t.world.files = s.world.files := by
  cases beside with
  | quiet hquiet => exact hquiet.files_eq keeps
  | other ne there goes => exact h.files_of_goes here holds ne there goes

end DeviceUpdate.Session
