import DeviceUpdate.Proofs.FileSystem.Content
import DeviceUpdate.Proofs.Session.Recovery
import DeviceUpdate.Proofs.Session.Replay

/-!
# Pending packages

A pending recovery request points to a file in the download directory, which later updates use as
well. The update that made the request leaves the file alone from then on. Later updates do not
know of it: a request with the same file name empties it.
-/

namespace DeviceUpdate

namespace Session

section

variable {σ : Type} {setup : Setup} {around : Surroundings σ} {s t : System σ}
  {environment : σ → Environment} {kept : Prop}

/-! ### The controller -/

lemma Secure.staged (h : Secure setup environment kept s) (i : Nat) : ¬ (s.role i).streams := by
  unfold System.role
  split
  · rename_i thread hthread
    obtain ⟨call, status⟩ := thread
    cases status with
    | running p => exact (h.points i call p hthread).staged
    | returned reply => exact id
  · exact id

/-- Cleanup that is left keeps the controller idle. -/
lemma Secure.idle_step (h : Secure setup environment kept s) (steady : Steady s)
    (step : Step setup around s t) (patient : Patient s t) :
    t.All fun _ _ p => p.cleans → p.role = .free → t.world.controller.state = .idle := by
  have hstill {i : Nat} {call : Call} {p : Point}
      (here : s.threads[i]? = some ⟨call, .running p⟩) (hcleans : p.cleans)
      (hfree : p.role = .free) : t.world.controller.state = .idle := by
    have hidle := h.idle i call p here hcleans hfree
    have hgeneration := h.generation_eq patient here hcleans hfree
    obtain ⟨call', -, hc, -⟩ | ⟨j, r, hc, -⟩ := step.control
    · rw [hc]
      exact hidle
    · rcases hc.idle (steady.owned.fits j) (h.staged j) hidle with hstate | hnext
      · exact hstate
      · exact absurd hgeneration hnext
  refine System.All.step steady.clear step ?_ ?_ ?_ ?_ ?_
  · exact fun i call p here _ _ hcleans hfree => hstill here hcleans hfree
  · intro call _ hcleans
    simp [Point.cleans] at hcleans
  · rintro i call p w p' here goes rfl - hcleans hfree
    rcases goes.freed hcleans hfree with ⟨hcleans', hfree', -⟩ | ⟨e, hlog, hlate⟩
    · exact hstill here hcleans' hfree'
    · exact ((goes.tells hlog).ends_early hlate (steady.fits here)
        (steady.serving i call p here)).1
  · intro i call p a hp hcleans hfree
    exact hp (cleans_of_resume hcleans) (by rwa [resume_role] at hfree)
  · intro i call p hp hcleans hfree
    exact hp (cleans_of_wake hcleans) (by rwa [wake_role] at hfree)

lemma Secure.completed_step (h : Secure setup environment kept s) (steady : Steady s)
    (step : Step setup around s t) :
    t.world.controller.outcome.isSome → t.world.controller.state = .completed := by
  obtain ⟨call', -, hc, -⟩ | ⟨j, r, hc, -⟩ := step.control
  · rw [hc]
    exact h.completed
  · exact hc.outcome (steady.owned.fits j) (h.staged j) h.completed

/-- While an update is completed nobody touches the environment. -/
lemma Secure.environment_step (h : Secure setup environment kept s) (steady : Steady s)
    (boots : around.SingleBoot environment) (step : Step setup around s t)
    (completed : s.world.controller.state = .completed) :
    environment t.device = environment s.device := by
  cases step with
  | @answer i call p e a d files here asks gets =>
    rcases h.environment_eq boots here asks gets with hsame | hinstalls | ⟨package, rest, rfl⟩
    · exact hsame
    · have hbusy := steady.busy_of_installs here hinstalls
      simp [SessionState.isBusy, SessionState.isOpen, SessionState.isLate, completed] at hbusy
    · have hidle := h.idle i call _ here rfl rfl
      simp [completed] at hidle
  | drift goes => exact boots.drifts _ _ _ _ goes
  | _ => rfl

lemma Secure.outcome_step (h : Secure setup environment kept s) (steady : Steady s)
    (boots : around.SingleBoot environment) (step : Step setup around s t) (o : UpdateOutcome)
    (ho : t.world.controller.outcome = some o) :
    o.mode = .staged ∧ (o.success → (environment t.device).Flagged) := by
  have hold (hs : s.world.controller.outcome = some o) :
      o.mode = .staged ∧ (o.success → (environment t.device).Flagged) := by
    rw [h.environment_step steady boots step (h.completed (by rw [hs]; rfl))]
    exact h.outcome o hs
  obtain hquiet | ⟨i, call, p, w, st, here, goes, rfl⟩ := step.quiet_or_goes
  · rw [hquiet.controller] at ho
    exact hold ho
  · obtain ⟨-, hs | ⟨result, otherwise, rfl⟩⟩ := goes.outcome_back ho
    · exact hold hs
    · exact h.points i call _ here

lemma Secure.layout_step (h : Secure setup environment kept s) (step : Step setup around s t) :
    t.world.shared.classifier.known ≠ some .dual := by
  cases step with
  | @move i call p w st here goes =>
    exact (goes_of_move goes).layout (h.points i call p here) h.layout
  | _ => exact h.layout

lemma Secure.delivery_step (h : Secure setup environment kept s) (step : Step setup around s t)
    (u : ActiveUpdate) (hu : t.world.controller.active = some u) : Lands setup u.delivery := by
  obtain hquiet | ⟨i, call, p, w, st, here, goes, rfl⟩ := step.quiet_or_goes
  · rw [hquiet.controller] at hu
    exact h.delivery u hu
  · exact goes.lands (h.points i call p here) h.delivery u hu

/-! ### The last package -/

/-- What is installed last changes only at the end of an install, to the package as it still
reads. -/
lemma Secure.deposit_moved (h : Secure setup environment kept s) {i : Nat} {call : Call}
    {p : Point} {w : World} {st : Status} (here : s.threads[i]? = some ⟨call, .running p⟩)
    (goes : Goes setup s.world p w st) :
    (s.moved i call p w st).deposit? = s.deposit? ∧
        (∀ g target package layout, p ≠ .installing g target package (.done (.ok layout))) ∨
      ∃ g target package layout, p = .installing g target package (.done (.ok layout)) ∧
        w = s.world ∧ st = .running (.installed g target package (.ok layout)) ∧
          (s.moved i call p w st).deposit? =
            some ⟨g, package, s.world.files.read package⟩ := by
  by_cases hother : ∀ g target package layout,
    p ≠ .installing g target package (.done (.ok layout))
  · exact .inl ⟨goes.deposit_eq hother, hother⟩
  · simp only [ne_eq, not_forall, Classical.not_not] at hother
    obtain ⟨g, target, package, layout, rfl⟩ := hother
    obtain ⟨-, -, hhand, -⟩ := h.points i call _ here
    generalize hpoint : Point.installing g target package (.done (.ok layout)) = p at goes
    cases goes with
    | inside wraps hmove =>
      cases wraps with
      | installing =>
        obtain ⟨-, -, -, rfl⟩ := Point.installing.inj hpoint
        cases hmove
      | _ => cases hpoint
    | installDone =>
      obtain ⟨rfl, rfl, rfl, hdone⟩ := Point.installing.inj hpoint
      obtain rfl := Procedure.done.inj hdone
      refine .inr ⟨g, target, package, layout, rfl, rfl, rfl, ?_⟩
      change (handedBy? i s.history).map (Deposit.mk g package) = _
      rw [hhand]
      rfl
    | _ => cases hpoint

lemma Quiet.deposit_eq (h : Quiet around s t) : t.deposit? = s.deposit? := by
  unfold System.deposit?
  rcases h.history with hsame | ⟨i, f, a, hnew⟩
  · rw [hsame]
  · rw [hnew]
    rfl

lemma Secure.past_step (h : Secure setup environment kept s) (steady : Steady s)
    (step : Step setup around s t) (deposit : Deposit) (hdeposit : t.deposit? = some deposit) :
    InDownloads setup deposit.package ∧ deposit.generation ≤ t.world.controller.generation ∧
      (deposit.generation = t.world.controller.generation →
        t.world.controller.PastInstall) := by
  obtain hquiet | ⟨i, call, p, w, st, here, goes, rfl⟩ := step.quiet_or_goes
  · rw [hquiet.deposit_eq] at hdeposit
    rw [hquiet.controller]
    exact h.past deposit hdeposit
  · have hfits := steady.fits here
    rcases h.deposit_moved here goes with
      ⟨hsame, -⟩ | ⟨g, target, package, layout, rfl, rfl, rfl, hnew⟩
    · rw [hsame] at hdeposit
      obtain ⟨hin, hle, hpast⟩ := h.past deposit hdeposit
      change InDownloads setup deposit.package ∧ deposit.generation ≤ w.controller.generation ∧
        (deposit.generation = w.controller.generation → w.controller.PastInstall)
      have hstaged := h.staged i
      rw [role_of_getElem? here] at hstaged
      rcases goes.control.generation_cases with heq | hnext
      · rw [heq]
        exact ⟨hin, hle, fun hg => goes.control.pastInstall hfits hstaged (hpast hg) heq⟩
      · rw [hnext]
        exact ⟨hin, by omega, fun hg => absurd hg (by omega)⟩
    · rw [hnew] at hdeposit
      obtain rfl := Option.some.inj hdeposit
      obtain ⟨hgeneration, hstate, hactive, -⟩ := hfits
      obtain ⟨-, hin, -⟩ := h.points i call _ here
      refine ⟨hin, Nat.le_of_eq hgeneration.symm, fun _ => ?_⟩
      change s.world.controller.PastInstall
      have hcases : s.world.controller.state = .installing ∨
          s.world.controller.state = .cancelled := hstate
      refine ⟨fun hopen => ?_, fun hfinal => ?_, fun _ => hactive⟩
      · rcases hcases with hs | hs <;> simp [SessionState.isOpen, hs] at hopen
      · rcases hcases with hs | hs <;> simp [hs] at hfinal

/-- The update of a pending package changes no files any more. -/
lemma Secure.files_eq (h : Secure setup environment kept s) (steady : Steady s) {i : Nat}
    {call : Call} {p : Point} {w : World} {st : Status} {deposit : Deposit}
    (here : s.threads[i]? = some ⟨call, .running p⟩) (goes : Goes setup s.world p w st)
    (pending : s.Pending environment deposit)
    (same : deposit.generation = s.world.controller.generation) :
    w.files = s.world.files := by
  obtain ⟨hflag, hdeposit⟩ := pending
  have hpast := (h.past deposit hdeposit).2.2 same
  have hp := h.points i call p here
  have hfits := steady.fits here
  have hdone {g : Nat} (hg : s.world.controller.generation = g) (hun : s.Undeposited g) : False :=
    hun deposit hdeposit (same.trans hg)
  cases goes with
  | request h' => cases h' <;> rfl
  | data h' =>
    cases h' with
    | refused code => rfl
    | failed code takes delivery kept => exact absurd takes.open_ hpast.1
    | written takes delivery write more => exact absurd takes.open_ hpast.1
    | finished takes delivery write final synced => exact absurd takes.open_ hpast.1
    | pushed takes delivery => rfl
  | cancel h' => cases h' <;> rfl
  | reset h' => cases h' <;> rfl
  | inside wraps hmove =>
    cases wraps <;> exact Procedure.Only.looks (steady.stays i call _ here) hmove
  | created create => exact (hpast.not_vacant hfits.2.1 hfits.2.2).elim
  | discardedFile => exact (hpast.not_vacant (.inr hfits.2.1) hfits.2.2).elim
  | assembled assembles => exact (hdone hfits.1 hp).elim
  | manifestRemoved => exact (hdone hfits.1 hp.1).elim
  | notAssembled => exact (hdone hfits.1 hp.1).elim
  | dropped => exact (hdone hfits.1 hp).elim
  | @used g target package result other =>
    cases result with
    | ok layout => exact absurd (congrArg Except.ok hp.1) other
    | error e => exact (hdone hfits.1 hp).elim
  | removed => exact absurd same (hp hflag deposit hdeposit)
  | _ => rfl

lemma Quiet.downloads (h : Quiet around s t) (keeps : around.KeepsDownloads setup) :
    SameDownloads setup s.world.files t.world.files := by
  rcases h.files with hsame | ⟨e, a, hanswer⟩ | hdrift
  · rw [hsame]
    exact fun _ _ => rfl
  · exact keeps.answers _ _ _ _ _ _ hanswer
  · exact keeps.drifts _ _ _ _ hdrift

/-- A pending package stays as it is, unless a later update disturbs it. -/
lemma Secure.read_eq (h : Secure setup environment kept s) (steady : Steady s)
    (keeps : around.KeepsDownloads setup) (step : Step setup around s t) {deposit : Deposit}
    (pending : s.Pending environment deposit) (calm : ¬ s.Disturbs t environment) :
    t.world.files.read deposit.package = s.world.files.read deposit.package := by
  obtain ⟨hin, hle, -⟩ := h.past deposit pending.2
  obtain hlt | hsame := Nat.lt_or_eq_of_le hle
  · by_contra hne
    exact calm ⟨deposit, pending, hlt, hne⟩
  · obtain hquiet | ⟨i, call, p, w, st, here, goes, rfl⟩ := step.quiet_or_goes
    · exact hquiet.downloads keeps _ hin
    · have hfiles := h.files_eq steady here goes pending hsame
      change w.files.read _ = _
      rw [hfiles]

/-! ### The request and its package -/

/-- A call that goes on installing, or another one, keeps a system installing. -/
lemma installing_of_set {i : Nat} {call : Call} {p : Point} {new : Thread} {w : World} {d : σ}
    {history : List (Nat × Event)} (here : s.threads[i]? = some ⟨call, .running p⟩)
    (keeps : p.installs → ∃ call' q, new = ⟨call', .running q⟩ ∧ q.installs)
    (h : s.Installing) : System.Installing ⟨w, s.threads.set i new, d, history⟩ := by
  obtain ⟨j, call', q, there, hq⟩ := h
  by_cases hji : j = i
  · subst hji
    obtain ⟨rfl, rfl⟩ : call = call' ∧ p = q := by simpa [here] using there
    obtain ⟨call'', q', rfl, hq'⟩ := keeps hq
    obtain ⟨hlt, -⟩ := List.getElem?_eq_some_iff.mp here
    exact ⟨j, call'', q', List.getElem?_set_self hlt, hq'⟩
  · refine ⟨j, call', q, ?_, hq⟩
    dsimp only
    rw [List.getElem?_set_ne (Ne.symm hji)]
    exact there

lemma Secure.faithful_moved (h : Secure setup environment kept s) (steady : Steady s)
    (keeps : around.KeepsDownloads setup) {i : Nat} {call : Call} {p : Point} {w : World}
    {st : Status} (here : s.threads[i]? = some ⟨call, .running p⟩)
    (move : (p.move setup s.world).result? = some (w, st))
    (calm : kept → ¬ s.Disturbs (s.moved i call p w st) environment)
    (idle : ¬ (s.moved i call p w st).Installing) :
    Faithful kept (environment s.device) (s.moved i call p w st).deposit? w.files := by
  have hsame : kept → (environment s.device).Flagged → ∀ deposit, s.deposit? = some deposit →
      w.files.read deposit.package = s.world.files.read deposit.package :=
    fun hkept hflag deposit hdeposit =>
      h.read_eq steady keeps (.move here move) ⟨hflag, hdeposit⟩ (calm hkept)
  have goes := goes_of_move move
  obtain ⟨hlt, -⟩ := List.getElem?_eq_some_iff.mp here
  have hp := h.points i call p here
  rcases h.deposit_moved here goes with
    ⟨hdeposit, hother⟩ | ⟨g, target, package, layout, rfl, rfl, rfl, hnew⟩
  · rw [hdeposit]
    cases hinstalls : p.installs with
    | false =>
      refine (h.faithful fun hs => idle ?_).mono hsame
      refine installing_of_set here (fun hp => ?_) hs
      rw [hinstalls] at hp
      cases hp
    | true =>
      -- an install that is over went wrong, so the environment is as it was before
      cases p with
      | installing g target package rest =>
        generalize hpoint : Point.installing g target package rest = p at goes
        cases goes with
        | inside wraps hmove =>
          cases wraps with
          | installing =>
            exact absurd ⟨i, call, _, List.getElem?_set_self hlt, rfl⟩ idle
          | _ => cases hpoint
        | installDone =>
          obtain ⟨rfl, rfl, rfl, rfl⟩ := Point.installing.inj hpoint
          obtain ⟨-, -, -, before, hrest, hfaithful⟩ := hp
          rename_i result
          cases result with
          | ok layout => exact absurd rfl (hother _ _ _ _)
          | error e =>
            have hend : environment s.device = before := hrest.result
            rw [hend]
            exact hfaithful
        | _ => cases hpoint
      | _ => simp [Point.installs] at hinstalls
  · obtain ⟨-, -, -, before, hrest, -⟩ := hp
    obtain ⟨-, -, hnames⟩ := hrest.result
    exact fun _ => ⟨_, hnew, hnames, fun _ => rfl⟩

lemma Secure.faithful_step {timeout : Duration} (h : Secure setup environment kept s)
    (steady : Steady s) (recovery : setup.recovery = some (.environment timeout))
    (boots : around.SingleBoot environment) (keeps : around.KeepsDownloads setup)
    (step : Step setup around s t) (calm : kept → ¬ s.Disturbs t environment)
    (idle : ¬ t.Installing) :
    Faithful kept (environment t.device) t.deposit? t.world.files := by
  cases step with
  | @start call may =>
    refine h.faithful fun hs => idle ?_
    obtain ⟨j, call', q, there, hq⟩ := hs
    refine ⟨j, call', q, ?_, hq⟩
    rw [System.start, List.getElem?_append_left (List.getElem?_eq_some_iff.mp there).1]
    exact there
  | @move i call p w st here move => exact h.faithful_moved steady keeps here move calm idle
  | @answer i call p e a d files here asks gets =>
    have hresume : p.installs → (p.resume a).installs := by
      intro hp
      cases p with
      | installing => rfl
      | _ => cases hp
    have hother : p.installs = false := by
      rw [← Bool.not_eq_true]
      intro hp
      obtain ⟨hlt, -⟩ := List.getElem?_eq_some_iff.mp here
      exact idle ⟨i, call, p.resume a, List.getElem?_set_self hlt, hresume hp⟩
    have hfiles := keeps.answers _ _ _ _ _ _ gets
    have hfaithful := h.faithful fun hs =>
      idle (installing_of_set here (fun hp => ⟨_, _, rfl, hresume hp⟩) hs)
    intro hflag
    have henv := h.environment_of_flagged boots recovery here asks gets hother hflag
    have hmono := hfaithful.mono fun _ _ deposit hlast =>
      hfiles deposit.package (h.past deposit hlast).1
    rw [← henv] at hmono
    exact hmono hflag
  | @wake i call p here waits =>
    refine h.faithful fun hs => idle (installing_of_set here (fun hp => ⟨_, _, rfl, ?_⟩) hs)
    cases p <;> exact hp
  | engine goes => exact h.faithful idle
  | drift goes =>
    rw [boots.drifts _ _ _ _ goes]
    exact (h.faithful idle).mono fun _ _ deposit hlast =>
      keeps.drifts _ _ _ _ goes deposit.package (h.past deposit hlast).1

/-- Every patient step keeps what is known of the recovery request. -/
theorem Secure.step {timeout : Duration} (h : Secure setup environment kept s)
    (steady : Steady s) (recovery : setup.recovery = some (.environment timeout))
    (boots : around.SingleBoot environment) (keeps : around.KeepsDownloads setup)
    (step : Step setup around s t) (patient : Patient s t)
    (calm : kept → ¬ s.Disturbs t environment) : Secure setup environment kept t where
  layout := h.layout_step step
  delivery := h.delivery_step step
  completed := h.completed_step steady step
  outcome := h.outcome_step steady boots step
  past := h.past_step steady step
  idle := h.idle_step steady step patient
  points := h.points_step steady recovery boots keeps step patient
  faithful := h.faithful_step steady recovery boots keeps step calm

/-! ### Runs -/

/-- A pending recovery request names the last package that was installed, and the package is there
and holds what the install was handed. -/
def System.Intact (s : System σ) (environment : σ → Environment) : Prop :=
  (environment s.device).Flagged → ∃ g package content,
    s.deposit? = some ⟨g, package, .ok content⟩ ∧ (environment s.device).Names package ∧
      s.world.files.read package = .ok content

/-- The install was handed a package that could not be read. -/
def System.Missing (s : System σ) (environment : σ → Environment) : Prop :=
  ∃ g package e, s.Pending environment ⟨g, package, .error e⟩

lemma build_layout {files : FileSystem} {layout : Option BootLayout} {w : World}
    (built : setup.build files layout = .ok w) (single : layout ≠ some .dual) :
    w.shared.classifier.known ≠ some .dual := by
  rw [eq_of_build built]
  cases layout with
  | none => simp
  | some layout =>
    intro hknown
    simp only [Option.elim_some, Classifier.fixed] at hknown
    split at hknown
    · cases hknown
    · exact single hknown

lemma secure_fresh {w : World} {d : σ} (controller : w.controller = {})
    (layout : w.shared.classifier.known ≠ some .dual) (clear : ¬ (environment d).Flagged) :
    Secure setup environment kept (System.fresh w d) := by
  have hactive : (System.fresh w d).world.controller.active = none := by
    change w.controller.active = none
    rw [controller]
  have houtcome : (System.fresh w d).world.controller.outcome = none := by
    change w.controller.outcome = none
    rw [controller]
  refine ⟨layout, ?_, ?_, ?_, ?_, System.all_fresh w d, System.all_fresh w d, ?_⟩
  · intro u hu
    rw [hactive] at hu
    cases hu
  · intro hsome
    rw [houtcome] at hsome
    cases hsome
  · intro o ho
    rw [houtcome] at ho
    cases ho
  · intro deposit hdeposit
    cases hdeposit
  · exact fun _ hflag => absurd hflag clear

/-- As long as, if `kept`, no later update disturbs a pending package, what is known of the
recovery request stays so. -/
lemma secure_of_run {timeout : Duration} (run : PatientRun setup around s t)
    (recovery : setup.recovery = some (.environment timeout))
    (boots : around.SingleBoot environment) (keeps : around.KeepsDownloads setup)
    (steady : Steady s) (h : Secure setup environment kept s)
    (calm : kept → ∀ u v, PatientRun setup around s u → Step setup around u v → Patient u v →
      PatientRun setup around v t → ¬ u.Disturbs v environment) :
    Steady t ∧ Secure setup environment kept t := by
  refine keeps_unless (P := fun u => Steady u ∧ Secure setup environment kept u)
    (B := fun u v => kept ∧ u.Disturbs v environment) run ⟨steady, h⟩
    (fun u v hu step hv ⟨hkept, hdisturbs⟩ => calm hkept u v hu step.1 step.2 hv hdisturbs) ?_
  rintro u v ⟨hsteady, hsecure⟩ ⟨step, patient⟩ hcalm
  exact ⟨hsteady.step step patient fun i => Role.not_disturbs (hsecure.staged i),
    hsecure.step hsteady recovery boots keeps step patient
      fun hkept hdisturbs => hcalm ⟨hkept, hdisturbs⟩⟩

/-! ### Steps that disturb -/

/-- A call that begins an install changes no files. -/
lemma Goes.installs {w w' : World} {p q : Point} (h : Goes setup w p w' (.running q))
    (hq : q.installs) : p.installs ∨ w'.files = w.files := by
  generalize hst : Status.running q = st at h
  cases h with
  | request h' => cases h' <;> exact .inr rfl
  | data h' =>
    cases h' with
    | failed code takes delivery kept =>
      cases hst
      cases hq
    | finished takes delivery write final synced =>
      generalize ActiveUpdate.target _ = target at hst
      cases hst
      cases target <;> cases hq
    | written takes delivery write more => cases hst
    | _ => exact .inr rfl
  | cancel h' => cases h' <;> exact .inr rfl
  | reset h' => cases h' <;> exact .inr rfl
  | inside wraps hmove =>
    cases hst
    cases wraps with
    | installing => exact .inl rfl
    | _ => cases hq
  | created create =>
    cases hst
    cases hq
  | discardedFile =>
    cases hst
    cases hq
  | assembled assembles =>
    cases hst
    cases hq
  | manifestRemoved =>
    cases hst
    cases hq
  | notAssembled =>
    cases hst
    cases hq
  | dropped =>
    cases hst
    cases hq
  | used other =>
    cases hst
    cases hq
  | removed => cases hst
  | _ => exact .inr rfl

/-- During an install no files change. -/
lemma Steady.files_of_installing (steady : Steady s) {i : Nat} {call : Call} {p : Point}
    {w : World} {st : Status} (here : s.threads[i]? = some ⟨call, .running p⟩)
    (goes : Goes setup s.world p w st)
    (installing : s.Installing ∨ (s.moved i call p w st).Installing) :
    w.files = s.world.files := by
  -- an install that goes on
  have hown (hp : p.installs) : w.files = s.world.files := by
    cases p with
    | installing g target package rest =>
      generalize hpoint : Point.installing g target package rest = p at goes
      cases goes with
      | inside wraps hmove =>
        cases wraps with
        | installing =>
          obtain ⟨-, -, -, rfl⟩ := Point.installing.inj hpoint
          exact Procedure.Only.looks (steady.stays i call _ here) hmove
        | _ => cases hpoint
      | installDone => rfl
      | _ => cases hpoint
    | _ => cases hp
  -- another call beside it
  have hother {j : Nat} {call' : Call} {q : Point} (ne : j ≠ i)
      (there : s.threads[j]? = some ⟨call', .running q⟩) (hq : q.installs) :
      w.files = s.world.files := by
    obtain ⟨g, hrole⟩ := q.role_of_installs hq
    exact steady.files_of_goes there (by rw [hrole]; trivial) ne.symm here goes
  obtain ⟨hlt, -⟩ := List.getElem?_eq_some_iff.mp here
  rcases installing with ⟨j, call', q, there, hq⟩ | ⟨j, call', q, there, hq⟩
  · by_cases hji : j = i
    · subst hji
      obtain ⟨rfl, rfl⟩ : call = call' ∧ p = q := by simpa [here] using there
      exact hown hq
    · exact hother hji there hq
  · by_cases hji : j = i
    · subst hji
      rw [System.moved, List.getElem?_set_self hlt] at there
      obtain ⟨rfl, rfl⟩ : call = call' ∧ st = .running q := by simpa using there
      rcases goes.installs hq with hp | hsame
      · exact hown hp
      · exact hsame
    · rw [System.moved, List.getElem?_set_ne (Ne.symm hji)] at there
      exact hother hji there hq

/-- A step that disturbs a pending package changes nothing else that counts. -/
lemma Secure.disturbed (h : Secure setup environment kept s) (steady : Steady s)
    (keeps : around.KeepsDownloads setup) (step : Step setup around s t)
    (disturbs : s.Disturbs t environment) :
    environment t.device = environment s.device ∧ t.deposit? = s.deposit? ∧ ¬ s.Installing ∧
      ¬ t.Installing := by
  obtain ⟨deposit, ⟨-, hdeposit⟩, -, hread⟩ := disturbs
  have hin := (h.past deposit hdeposit).1
  obtain hquiet | ⟨i, call, p, w, st, here, goes, rfl⟩ := step.quiet_or_goes
  · exact absurd (hquiet.downloads keeps _ hin) hread
  · have hfiles : w.files ≠ s.world.files := fun hsame =>
      hread (congrArg (FileSystem.read · deposit.package) hsame)
    refine ⟨rfl, ?_, fun hs => ?_, fun ht => ?_⟩
    · rcases h.deposit_moved here goes with ⟨hsame, -⟩ | ⟨g, target, package, layout, -, rfl, -⟩
      · exact hsame
      · exact absurd rfl hfiles
    · exact hfiles (steady.files_of_installing here goes (.inl hs))
    · exact hfiles (steady.files_of_installing here goes (.inr ht))

/-- A request that is about to open its file disturbs a pending package, which is of an earlier
update, if it empties that. -/
lemma Secure.disturbs_created (h : Secure setup environment kept s) (steady : Steady s)
    {i g : Nat} {call : Call} {target : Target} {path : String} {handle : Handle}
    {files : FileSystem} {st : Status} {deposit : Deposit} {content : Bytes}
    (here : s.threads[i]? = some ⟨call, .running (.creating g target path)⟩)
    (create : s.world.files.create path = .ok (handle, files))
    (pending : s.Pending environment deposit)
    (there : s.world.files.read deposit.package = .ok content) :
    s.Disturbs (s.moved i call (.creating g target path) (s.world.setFiles files) st) environment ↔
      s.world.files.Empties path deposit.package := by
  rw [← FileSystem.read_of_create create there]
  constructor
  · rintro ⟨deposit', ⟨-, hdeposit'⟩, -, hread⟩
    obtain rfl : deposit = deposit' := Option.some.inj (pending.2.symm.trans hdeposit')
    exact hread
  · intro hread
    obtain ⟨-, hle, hpast⟩ := h.past deposit pending.2
    obtain ⟨-, hstate, hactive⟩ := steady.fits here
    refine ⟨deposit, pending, Nat.lt_of_le_of_ne hle fun hsame => ?_, hread⟩
    exact (hpast hsame).not_vacant hstate hactive

/-- On a device with one system partition, in every run in which no request is accepted before the
cleanup of the update before is done: outside of installs a pending recovery request names the
package that was installed last. The package is there all the time, and holds what the install was
handed, in exactly those runs in which no later update changes what it reads, and no install was
handed a package that could not be read. A request whose file name leads to the package does
change it, unless it is empty. -/
theorem pending_package_intact_iff {timeout : Duration} {files : FileSystem}
    {layout : Option BootLayout} {w : World} {d : σ}
    (built : setup.build files layout = .ok w)
    (recovery : setup.recovery = some (.environment timeout)) (single : layout ≠ some .dual)
    (boots : around.SingleBoot environment) (keeps : around.KeepsDownloads setup)
    (clear : ¬ (environment d).Flagged)
    (run : PatientRun setup around (System.fresh w d) s) :
    (¬ s.Installing → (environment s.device).Flagged →
      ∃ deposit, s.deposit? = some deposit ∧ (environment s.device).Names deposit.package) ∧
    ((∀ u, PatientRun setup around (System.fresh w d) u → PatientRun setup around u s →
        ¬ u.Installing → u.Intact environment) ↔
      (∀ u v, PatientRun setup around (System.fresh w d) u → Step setup around u v →
        Patient u v → PatientRun setup around v s → ¬ u.Disturbs v environment) ∧
      ∀ u, PatientRun setup around (System.fresh w d) u → PatientRun setup around u s →
        ¬ u.Installing → ¬ u.Missing environment) ∧
    ∀ (i g : Nat) (call : Call) (target : Target) (path : String) (handle : Handle)
      (files' : FileSystem) (deposit : Deposit) (content : Bytes),
      s.threads[i]? = some ⟨call, .running (.creating g target path)⟩ →
      s.world.files.create path = .ok (handle, files') → s.Pending environment deposit →
      s.world.files.read deposit.package = .ok content →
        (s.Disturbs (s.moved i call (.creating g target path) (s.world.setFiles files')
            (.running (.settling g target (.staged path (some handle))))) environment ↔
          s.world.files.Empties path deposit.package) := by
  have hcontroller := build_controller built
  have hsteady : Steady (System.fresh w d) := .fresh w d
  have hfresh (kept : Prop) : Secure setup environment kept (System.fresh w d) :=
    secure_fresh hcontroller (build_layout built single) clear
  -- what holds of all patient runs
  have hall {u : System σ} (hu : PatientRun setup around (System.fresh w d) u) :
      Steady u ∧ Secure setup environment False u :=
    secure_of_run hu recovery boots keeps hsteady (hfresh False) False.elim
  obtain ⟨hs, hsecure⟩ := hall run
  refine ⟨fun hidle hflag => ?_, ⟨fun hintact => ⟨?_, ?_⟩, fun ⟨hcalm, hthere⟩ => ?_⟩, ?_⟩
  · obtain ⟨deposit, hdeposit, hnames, -⟩ := hsecure.faithful hidle hflag
    exact ⟨deposit, hdeposit, hnames⟩
  · intro u v hu step patient hv hdisturbs
    obtain ⟨hsteady', hsecure'⟩ := hall hu
    obtain ⟨henv, hsame, hidle, hidle'⟩ := hsecure'.disturbed hsteady' keeps step hdisturbs
    obtain ⟨deposit, ⟨hflag, hdeposit⟩, -, hread⟩ := hdisturbs
    obtain ⟨g, package, content, hu', -, hreadu⟩ :=
      hintact u hu (hv.head ⟨step, patient⟩) hidle hflag
    obtain ⟨g', package', content', hv', -, hreadv⟩ :=
      hintact v (hu.tail ⟨step, patient⟩) hv hidle' (by rwa [henv])
    rw [hdeposit] at hu'
    rw [hsame, hdeposit] at hv'
    obtain rfl := Option.some.inj hu'
    obtain ⟨rfl, rfl, rfl⟩ : g = g' ∧ package = package' ∧ content = content' := by
      simpa using hv'
    exact hread (hreadv.trans hreadu.symm)
  · rintro u hu hus hidle ⟨g, package, e, hflag, hdeposit⟩
    obtain ⟨g', package', content, hu', -⟩ := hintact u hu hus hidle hflag
    rw [hdeposit] at hu'
    simp at hu'
  · intro u hu hus hidle hflag
    obtain ⟨-, hkept⟩ := secure_of_run hu recovery boots keeps hsteady (hfresh True)
      fun _ a b ha hab hpatient hb => hcalm a b ha hab hpatient (hb.trans hus)
    obtain ⟨⟨g, package, content⟩, hdeposit, hnames, hread⟩ := hkept.faithful hidle hflag
    cases content with
    | ok content => exact ⟨g, package, content, hdeposit, hnames, hread trivial⟩
    | error e => exact absurd ⟨g, package, e, hflag, hdeposit⟩ (hthere u hu hus hidle)
  · intro i g call target path handle files' deposit content here create pending there
    exact hsecure.disturbs_created hs here create pending there

end

/-! ### A reused file name -/

namespace Small

/-- `fw_setenv` sets and deletes variables, and no command prints anything. -/
def noting : Answers Environment := fun e env files =>
  match e with
  | .run c => (.ok (.ok ""), if c.program = "fw_setenv" then env.change c.arguments else env, files)
  | _ => (.ok (.ok ""), env, files)

def unnoted : System Environment := .fresh (world .single) fun _ => none

def note? (choices : List Choice) : Option (System Environment) :=
  unnoted.replay? setup (fun threads _ => threads.all (!·.status.isRunning)) noting choices

/-- An update is installed. The next request has the same file name, and is about to open it. -/
def reusing : List Choice :=
  [.start (.request 0 "image.swu" 1), .go 0, .go 0, .go 0, .go 0,
    .start (.data 0 0 [7] true), .go 1, .go 1, .go 1, .go 1, .go 1, .go 1, .go 1, .go 1,
    .start (.request 0 "image.swu" 1), .go 2, .go 2]

def beforeReuse : System Environment := (note? reusing).getD unnoted

def afterReuse : System Environment := (note? (reusing ++ [.go 2, .go 2])).getD unnoted

lemma run_note {choices : List Choice} {s : System Environment} (h : note? choices = some s) :
    Run setup (.sequential noting) unnoted s :=
  run_of_replay (allows_sequential noting) h

lemma noting_singleBoot : (Surroundings.sequential noting).SingleBoot id := by
  constructor
  · intro e env files a env' files' h
    cases e with
    | run c =>
      obtain ⟨rfl, rfl, -⟩ : a = .ok (.ok "") ∧
          env' = (if c.program = "fw_setenv" then env.change c.arguments else env) ∧ _ := by
        simpa [Surroundings.sequential, noting] using h
      by_cases hset : c.program = "fw_setenv"
      · rw [id, Effect.Single, if_pos hset, if_pos hset]
        exact ⟨⟨_, rfl⟩, rfl⟩
      · rw [id, Effect.Single, if_neg hset, if_neg hset]
        exact ⟨rfl, fun _ _ => by decide⟩
    | restart plan => exact .inl (Prod.mk.inj (Prod.mk.inj h).2).1
    | _ => exact (Prod.mk.inj (Prod.mk.inj h).2).1
  · rintro env files env' files' ⟨⟩

lemma noting_keepsDownloads : (Surroundings.sequential noting).KeepsDownloads setup := by
  constructor
  · intro e env files a env' files' h path _
    obtain rfl : files' = files := by
      have hfiles := (Prod.mk.inj (Prod.mk.inj h).2).2
      cases e <;> exact hfiles
    rfl
  · rintro env files env' files' ⟨⟩

end Small

/-- A request with the file name of a pending package empties that when it opens its file. -/
theorem reused_name_disturbs_pending_package :
    ∃ handle files, Small.beforeReuse.world.files.create "dl/image.swu" = .ok (handle, files) ∧
      Small.beforeReuse.Disturbs (Small.beforeReuse.moved 2 (.request 0 "image.swu" 1)
        (.creating 2 .system "dl/image.swu") (Small.beforeReuse.world.setFiles files)
        (.running (.settling 2 .system (.staged "dl/image.swu" (some handle))))) id := by
  have hbuilt : Small.setup.build Small.files (some .single) = .ok (Small.world .single) := rfl
  have hrun := Run.patient (sequential_inTurn _)
    (Small.run_note (rfl : Small.note? Small.reusing = some Small.beforeReuse))
  have h := pending_package_intact_iff hbuilt rfl (by simp)
    Small.noting_singleBoot Small.noting_keepsDownloads (by simp [Environment.Flagged]) hrun
  have hread : Small.beforeReuse.world.files.read "dl/image.swu" = .ok [7] := rfl
  obtain ⟨⟨handle, files⟩, hcreate⟩ :
      ∃ r, Small.beforeReuse.world.files.create "dl/image.swu" = .ok r := ⟨_, rfl⟩
  have hempties : Small.beforeReuse.world.files.Empties "dl/image.swu" "dl/image.swu" :=
    ⟨rfl, rfl, by simp [hread]⟩
  exact ⟨handle, files, hcreate, (h.2.2 2 2 _ _ _ handle files ⟨1, "dl/image.swu", .ok [7]⟩ [7]
    rfl hcreate ⟨rfl, rfl⟩ hread).mpr hempties⟩

/-- Nobody withdrew the recovery request, and no call is under way, but the package that it names
is empty: the next update has taken the file over. -/
theorem reused_name_empties_pending_package :
    Run Small.setup (.sequential Small.noting) Small.unnoted Small.afterReuse ∧
      Small.afterReuse.threads.all (!·.status.isRunning) = true ∧
      Environment.Flagged Small.afterReuse.device ∧
      Environment.Names Small.afterReuse.device "dl/image.swu" ∧
      Small.afterReuse.deposit? = some ⟨1, "dl/image.swu", .ok [7]⟩ ∧
      Small.afterReuse.world.files.read "dl/image.swu" = .ok [] ∧
      ¬ Small.afterReuse.Intact id := by
  have hrun : Small.note? (Small.reusing ++ [.go 2, .go 2]) = some Small.afterReuse := rfl
  have hdeposit : Small.afterReuse.deposit? = some ⟨1, "dl/image.swu", .ok [7]⟩ := rfl
  have hread : Small.afterReuse.world.files.read "dl/image.swu" = .ok [] := rfl
  refine ⟨Small.run_note hrun, rfl, rfl, rfl, hdeposit, hread, fun hintact => ?_⟩
  obtain ⟨g, package, content, hlast, -, hcontent⟩ := hintact rfl
  obtain ⟨rfl, rfl, rfl⟩ : 1 = g ∧ "dl/image.swu" = package ∧ [7] = content := by
    simpa [hdeposit] using hlast
  simp [hread] at hcontent

end Session

end DeviceUpdate
