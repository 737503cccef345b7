import DeviceUpdate.Proofs.Assembly
import DeviceUpdate.Proofs.Session.SingleBoot

/-!
# Recovery requests

Every step keeps what is known of a device with one system partition: no two calls have to do with
the recovery request at a time, and none sets the flag of the bootloader but an install.
-/

namespace DeviceUpdate

namespace Session

variable {σ : Type} {setup : Setup} {around : Surroundings σ} {s t : System σ}
  {environment : σ → Environment} {kept : Prop}

/-! ### A call that goes on -/

/-- An update rests on one call only. -/
lemma Steady.staged_unique (h : Steady s) {i j g g' : Nat} {stage stage' : Stage}
    {call call' : Call} {p q : Point} (here : s.threads[i]? = some ⟨call, .running p⟩)
    (there : s.threads[j]? = some ⟨call', .running q⟩) (hp : p.role = .staged g stage)
    (hq : q.role = .staged g' stage') : i = j := by
  by_contra hij
  have hapart := h.owned.apart i j hij
  rw [role_of_getElem? here, role_of_getElem? there] at hapart
  change ¬ p.role.Clashes q.role at hapart
  rw [hp, hq] at hapart
  exact hapart trivial

lemma Point.role_of_installs {p : Point} (h : p.installs) :
    ∃ g, p.role = .staged g .installing := by
  cases p with
  | installing g target package rest => exact ⟨g, rfl⟩
  | _ => simp [Point.installs] at h

lemma Steady.not_installing (h : Steady s) {i g : Nat} {stage : Stage} {call : Call}
    {p : Point} (here : s.threads[i]? = some ⟨call, .running p⟩) (hp : p.role = .staged g stage)
    (other : p.installs = false) : ¬ s.Installing := by
  rintro ⟨j, call', q, there, hq⟩
  obtain ⟨g', hrole⟩ := q.role_of_installs hq
  obtain rfl := h.staged_unique here there hp hrole
  obtain ⟨-, rfl⟩ : call = call' ∧ p = q := by simpa [here] using there
  rw [other] at hq
  cases hq

/-- A package counts as installed at the end of its install, not before. -/
lemma Goes.undeposited {i g : Nat} {call : Call} {p : Point} {w : World} {st : Status}
    (goes : Goes setup s.world p w st)
    (other : ∀ g target package layout, p ≠ .installing g target package (.done (.ok layout)))
    (h : s.Undeposited g) : (s.moved i call p w st).Undeposited g := by
  unfold System.Undeposited
  rw [goes.deposit_eq other]
  exact h

lemma Secure.secured_of_data (h : Secure setup environment kept s) {i number offset : Nat}
    {call : Call} {chunk : Bytes} {last : Bool} {w : World} {st : Status}
    (step : DataStep s.world number offset chunk last w st) :
    st.Secured setup environment kept
      (s.moved i call (.entry (.data number offset chunk last)) w st) i := by
  have hgoes : Goes setup s.world (.entry (.data number offset chunk last)) w st := .data step
  have hopen {u : ActiveUpdate} (takes : Takes s.world.controller number offset u) :
      (s.moved i call (.entry (.data number offset chunk last)) w st).Undeposited
        s.world.controller.generation :=
    hgoes.undeposited (by simp) (h.undeposited takes.open_)
  cases step with
  | refused code => trivial
  | failed code takes delivery kept => exact fun _ => hopen takes
  | written takes delivery write more => trivial
  | @finished u path handle handle' files takes delivery write final synced =>
    have hun := hopen takes
    have hlands := h.delivery u takes.active
    rw [delivery] at hlands
    generalize u.target = target at hun ⊢
    cases target with
    | system => exact ⟨hun, hlands⟩
    | manifest => exact hun
  | @pushed u stream takes delivery =>
    have hlands := h.delivery u takes.active
    rw [delivery] at hlands
    exact hlands.elim

lemma Secure.secured_of_reset (h : Secure setup environment kept s) {i number : Nat}
    {call : Call} {version : Version} {w : World} {st : Status}
    (step : ResetStep setup s.world number w st) :
    st.Secured setup environment kept
      (s.moved i call (.entry (.reset number version)) w st) i := by
  cases step with
  | refused decision unscheduled => trivial
  | begun done path =>
    have houtcome := h.outcome
    generalize s.world.controller.outcome = outcome at path houtcome
    cases path with
    | refused => trivial
    | swap same success mode =>
      have hmode := (houtcome _ rfl).1
      rw [mode] at hmode
      cases hmode
    | plan same success mode =>
      exact ⟨Procedure.asking_bootLayout, (houtcome _ rfl).2 success⟩

/-- A call inside a procedure can rely on what the procedure needs. -/
lemma Secure.secured_of_inside {timeout : Duration} (h : Secure setup environment kept s)
    (steady : Steady s) (recovery : setup.recovery = some (.environment timeout)) {i : Nat}
    {call : Call} {α : Type} {wrap : Procedure α → Point} {rest rest' : Procedure α}
    {shared : Shared} (here : s.threads[i]? = some ⟨call, .running (wrap rest)⟩)
    (wraps : Wraps wrap) (move : rest.move s.world.shared = .step shared rest') :
    (wrap rest').Secured setup environment kept
      (s.moved i call (wrap rest) { s.world with shared } (.running (wrap rest'))) i := by
  have hp := h.points i call _ here
  have hgoes : Goes setup s.world (wrap rest) { s.world with shared } (.running (wrap rest')) :=
    .inside wraps move
  cases wraps with
  | choosing => exact ⟨(Procedure.Asking.step hp.1 h.layout move).1, hp.2⟩
  | asking => exact (Procedure.Asking.step hp h.layout move).1
  | planning => exact ⟨(Procedure.Asking.step hp.1 h.layout move).1, hp.2⟩
  | @withdrawing package =>
    refine ⟨(Procedure.Withdrawing.step hp.1 h.layout move).1, .inr ?_⟩
    rcases hp.2 with rfl | hclear
    · rw [recovery] at move
      cases move
    · exact hclear
  | @installing g target package =>
    obtain ⟨hg, hin, hhand, before, hrest, hfaithful⟩ := hp
    have hother : ∀ g' target' package' layout, Point.installing g target package rest ≠
        .installing g' target' package' (.done (.ok layout)) := by
      rintro g' target' package' layout heq
      obtain ⟨-, -, -, rfl⟩ := Point.installing.inj heq
      simp [Procedure.move] at move
    have hfiles := Procedure.Only.looks (steady.stays i call _ here) move
    refine ⟨hgoes.undeposited hother hg, hin, ?_, before,
      (Procedure.Installing.step hrest h.layout move).1, ?_⟩
    · rw [hgoes.handed_eq (.inr (by simp)), hhand]
      exact congrArg (fun files => some (FileSystem.read files package)) hfiles.symm
    · rw [hgoes.deposit_eq hother]
      change Faithful kept before s.deposit? shared.files
      rw [hfiles]
      exact hfaithful
  | preparing => exact hp.elim
  | swapping => exact hp.elim

/-- A call that goes on can rely on what it needs. -/
lemma Goes.secured {timeout : Duration} {i : Nat} {call : Call} {p : Point} {w : World}
    {st : Status} (goes : Goes setup s.world p w st) (steady : Steady s)
    (recovery : setup.recovery = some (.environment timeout))
    (h : Secure setup environment kept s) (here : s.threads[i]? = some ⟨call, .running p⟩) :
    st.Secured setup environment kept (s.moved i call p w st) i := by
  have hp := h.points i call p here
  have hgoes := goes
  cases goes with
  | request h' =>
    cases h' with
    | refused code => trivial
    | accepted known name free goes =>
      obtain ⟨-, rfl⟩ | rfl := goes
      · exact ⟨Procedure.asking_bootLayout, name⟩
      · exact name
  | data h' => exact h.secured_of_data h'
  | cancel h' =>
    cases h' with
    | active open_ update same => exact h.delivery _ update
    | lateStream late update delivery =>
      have hlands := h.delivery _ update
      rw [delivery] at hlands
      exact hlands.elim
    | _ => trivial
  | reset h' => exact h.secured_of_reset h'
  | bootLayout => exact Procedure.asking_bootLayout
  | inside wraps move => exact h.secured_of_inside steady recovery here wraps move
  | chosenDual => exact absurd rfl hp.1.result
  | chosen other => exact hp.2
  | spaceFound free fits => exact inDownloads_of_acceptable hp
  | prepared => exact hp.elim
  | unprepared => exact hp.elim
  | created create => exact hp
  | lost lost => exact hp
  | discardedStream => exact hp.elim
  | stops h' => exact hp.elim
  | pushes h' => exact hp.elim
  | pushedFinal h' => exact hp.elim
  | notPushed e h' fails => exact hp.elim
  | judged => exact hp.elim
  | @assembled g target manifest result files assembles =>
    refine ⟨hgoes.undeposited (by simp) hp, fun package hresult => ?_⟩
    subst hresult
    obtain ⟨content, m, -, hdescribes, rfl, -⟩ := Assembly.assembleFromManifest_fits assembles
    exact ⟨m.packageFileName, hdescribes.packageFileName.1, rfl⟩
  | manifestRemoved => exact ⟨hgoes.undeposited (by simp) hp.1, hp.2 _ rfl⟩
  | notAssembled => exact ⟨rfl, by simp [stagedOutcome]⟩
  | handed owner =>
    refine ⟨hgoes.undeposited (by simp) hp.1, hp.2, if_pos rfl, environment s.device, ?_, ?_⟩
    · rw [recovery]
      exact Install.dispatch_installing _ _ _
    · rw [hgoes.deposit_eq (by simp)]
      exact h.faithful (steady.not_installing here rfl rfl)
  | unwanted lost => exact hgoes.undeposited (by simp) hp.1
  | dropped => exact ⟨rfl, by simp [stagedOutcome]⟩
  | @installDone g target package result =>
    obtain ⟨hg, -, -, before, hrest, -⟩ := hp
    have hend := hrest.result
    cases result with
    | ok layout => exact ⟨hend.1, hend.2.1⟩
    | error e => exact hgoes.undeposited (by simp) hg
  | kept => exact ⟨rfl, fun _ => hp.2⟩
  | @used g target package result other =>
    refine ⟨rfl, fun hsuccess => ?_⟩
    cases result with
    | ok layout => exact absurd (congrArg Except.ok hp.1) other
    | error e => cases hsuccess
  | takenBack lost =>
    refine ⟨?_, .inl rfl⟩
    rw [recovery]
    exact Install.withdraw_withdrawing _
  | withdrawn =>
    intro hflag
    rcases hp.2 with hwhole | hclear
    · rw [recovery] at hwhole
      cases hwhole
    · exact absurd hflag hclear
  | swapped => exact hp.elim
  | notSwapped => exact hp.elim
  | planned possible => exact hp.2
  | _ => trivial

/-! ### A call that gets an answer -/

/-- Only an install changes the environment, or a call that takes one back. -/
lemma Secure.environment_eq (h : Secure setup environment kept s)
    (boots : around.SingleBoot environment) {i : Nat} {call : Call} {p : Point} {e : Effect}
    {a : Answer} {d : σ} {files : FileSystem} (here : s.threads[i]? = some ⟨call, .running p⟩)
    (asks : p.move setup s.world = .effect e)
    (gets : around.answers e s.device s.world.files a d files) :
    environment d = environment s.device ∨ p.installs ∨
      (∃ package rest, p = .withdrawing package rest) := by
  have hp := h.points i call p here
  have hsingle := boots.answers _ _ _ _ _ _ gets
  cases asks_of_move asks with
  | inside wraps hmove =>
    cases wraps with
    | choosing => exact .inl ((Procedure.Ensures.effect hp.1 hmove).same hsingle)
    | asking => exact .inl ((Procedure.Ensures.effect hp hmove).same hsingle)
    | planning => exact .inl ((Procedure.Ensures.effect hp.1 hmove).same hsingle)
    | installing => exact .inr (.inl rfl)
    | withdrawing => exact .inr (.inr ⟨_, _, rfl⟩)
    | preparing => exact hp.elim
    | swapping => exact hp.elim
  | starting => exact hp.elim
  | stopping => exact hp.elim
  | pushing => exact hp.elim
  | scheduling => exact .inl (Environment.Flagged.restart hp hsingle)

/-- If the flag is set after an answer, then nothing changed, installs apart. -/
lemma Secure.environment_of_flagged {timeout : Duration} (h : Secure setup environment kept s)
    (boots : around.SingleBoot environment)
    (recovery : setup.recovery = some (.environment timeout)) {i : Nat} {call : Call} {p : Point}
    {e : Effect} {a : Answer} {d : σ} {files : FileSystem}
    (here : s.threads[i]? = some ⟨call, .running p⟩) (asks : p.move setup s.world = .effect e)
    (gets : around.answers e s.device s.world.files a d files) (other : p.installs = false)
    (flag : (environment d).Flagged) : environment d = environment s.device := by
  have hp := h.points i call p here
  rcases h.environment_eq boots here asks gets with hsame | hinstalls | ⟨package, rest, rfl⟩
  · exact hsame
  · rw [other] at hinstalls
    cases hinstalls
  · have hsingle := boots.answers _ _ _ _ _ _ gets
    have hmove := effect_of_advance asks
    rcases hp.2 with rfl | hclear
    · rw [recovery] at hmove
      exact absurd flag (Install.not_flagged_of_withdraw hmove hsingle)
    · exact absurd (Procedure.Ensures.effect hp.1 hmove _ _ _ hsingle flag) hclear

/-- A call that gets an answer can rely on what it needs. -/
lemma Secure.resumed {timeout : Duration} (h : Secure setup environment kept s)
    (boots : around.SingleBoot environment) (keeps : around.KeepsDownloads setup)
    (recovery : setup.recovery = some (.environment timeout)) {i : Nat} {call : Call} {p : Point}
    {e : Effect} {a : Answer} {d : σ} {files : FileSystem}
    (here : s.threads[i]? = some ⟨call, .running p⟩) (asks : p.move setup s.world = .effect e)
    (gets : around.answers e s.device s.world.files a d files) :
    (p.resume a).Secured setup environment kept (s.answered i call p e a d files) i := by
  have hp := h.points i call p here
  have hsingle := boots.answers _ _ _ _ _ _ gets
  have hfiles := keeps.answers _ _ _ _ _ _ gets
  have hflag := h.environment_of_flagged boots recovery here asks gets
  have hanswer : e.SingleAnswer () a () := ⟨_, _, hsingle⟩
  cases asks_of_move asks with
  | inside wraps hmove =>
    cases wraps with
    | choosing => exact ⟨Procedure.Ensures.resume hp.1 hmove hanswer, hp.2⟩
    | asking => exact Procedure.Ensures.resume hp hmove hanswer
    | planning =>
      refine ⟨Procedure.Ensures.resume hp.1 hmove hanswer, ?_⟩
      have hsame := (Procedure.Ensures.effect hp.1 hmove).same hsingle
      change (environment d).Flagged
      rw [hsame]
      exact hp.2
    | @installing g target package =>
      obtain ⟨hg, hin, hhand, before, hrest, hfaithful⟩ := hp
      refine ⟨hg, hin, ?_, before, Procedure.Ensures.resume hrest hmove hsingle, ?_⟩
      · change handedBy? i s.history = some (FileSystem.read files package)
        rw [hfiles package hin]
        exact hhand
      · exact hfaithful.mono fun _ _ deposit hdeposit =>
          hfiles deposit.package (h.past deposit hdeposit).1
    | withdrawing =>
      refine ⟨Procedure.Ensures.resume hp.1 hmove hanswer, .inr fun hnow => ?_⟩
      rcases hp.2 with rfl | hclear
      · rw [recovery] at hmove
        exact Install.not_flagged_of_withdraw hmove hsingle hnow
      · rw [← hflag rfl hnow] at hclear
        exact hclear hnow
    | preparing => exact hp.elim
    | swapping => exact hp.elim
  | starting => exact hp.elim
  | stopping => exact hp.elim
  | pushing => exact hp.elim
  | scheduling => trivial

/-! ### The other calls -/

/-- What a call relies on stays if what it depends on does. -/
lemma Point.Secured.mono {i : Nat} {q : Point} (hq : q.Secured setup environment kept s i)
    (handed : handedBy? i t.history = handedBy? i s.history)
    (staged : ∀ g stage, q.role = .staged g stage →
      environment t.device = environment s.device ∧
        SameDownloads setup s.world.files t.world.files ∧ t.deposit? = s.deposit?)
    (past : ∀ deposit, s.deposit? = some deposit → InDownloads setup deposit.package)
    (reset : q.role = .reset → environment t.device = environment s.device)
    (free : q.cleans → q.role = .free →
      ((environment t.device).Flagged → (environment s.device).Flagged) ∧
        t.deposit? = s.deposit? ∧
        t.world.controller.generation = s.world.controller.generation) :
    q.Secured setup environment kept t i := by
  have hun {g g' : Nat} {stage : Stage} (role : q.role = .staged g stage)
      (hg : s.Undeposited g') : t.Undeposited g' := by
    unfold System.Undeposited
    rw [(staged g stage role).2.2]
    exact hg
  cases q with
  | planning rest => exact ⟨hq.1, by rw [reset rfl]; exact hq.2⟩
  | scheduling plan =>
    change (environment t.device).Flagged
    rw [reset rfl]
    exact hq
  | assembling g target manifest => exact hun rfl hq
  | removingManifest g target manifest result => exact ⟨hun rfl hq.1, hq.2⟩
  | checking g target package => exact ⟨hun rfl hq.1, hq.2⟩
  | dropping g target package => exact hun rfl hq
  | installing g target package rest =>
    obtain ⟨henv, hfiles, hdeposit⟩ := staged _ _ rfl
    obtain ⟨hg, hin, hhand, before, hrest, hfaithful⟩ := hq
    refine ⟨hun rfl hg, hin, ?_, before, ?_, ?_⟩
    · rw [handed, hfiles package hin]
      exact hhand
    · rw [henv]
      exact hrest
    · rw [hdeposit]
      exact hfaithful.mono fun _ _ deposit hlast => hfiles deposit.package (past deposit hlast)
  | installed g target package result =>
    cases result with
    | ok layout => exact ⟨hq.1, by rw [(staged _ _ rfl).1]; exact hq.2⟩
    | error e => exact hun rfl hq
  | concluding g outcome result otherwise =>
    obtain ⟨hmode, hflag⟩ := hq
    refine ⟨hmode, fun hsuccess => ?_⟩
    have hrole : (Point.concluding g outcome result otherwise).role = .staged g .ending := by
      simp [Point.role, hmode, Role.ofOutcome]
    rw [(staged _ _ hrole).1]
    exact hflag hsuccess
  | withdrawing package rest =>
    refine ⟨hq.1, hq.2.imp id fun hclear hnow => ?_⟩
    exact hclear ((free rfl rfl).1 hnow)
  | removing path reply =>
    obtain ⟨hflag, hdeposit, hgeneration⟩ := free rfl rfl
    intro hnow
    unfold System.Undeposited
    rw [hdeposit, hgeneration]
    exact hq (hflag hnow)
  | _ => exact hq

lemma Secure.still (h : Secure setup environment kept s) {i : Nat} {call : Call} {q : Point}
    (there : s.threads[i]? = some ⟨call, .running q⟩)
    (env : environment t.device = environment s.device)
    (files : SameDownloads setup s.world.files t.world.files)
    (history : t.history = s.history) (controller : t.world.controller = s.world.controller) :
    q.Secured setup environment kept t i := by
  have hdeposit : t.deposit? = s.deposit? := congrArg lastDeposit? history
  refine (h.points i call q there).mono (by rw [history])
    (fun _ _ _ => ⟨env, files, hdeposit⟩) (fun deposit hlast => (h.past deposit hlast).1)
    (fun _ => env) fun _ _ => ⟨fun hflag => ?_, hdeposit, by rw [controller]⟩
  rwa [env] at hflag

lemma Steady.busy (h : Steady s) {i g : Nat} {stage : Stage} {call : Call} {p : Point}
    (here : s.threads[i]? = some ⟨call, .running p⟩) (hp : p.role = .staged g stage) :
    s.world.controller.state.isBusy := by
  refine Role.busy_of_holds ?_ (h.fits here)
  rw [hp]
  trivial

lemma Steady.busy_of_installs (h : Steady s) {i : Nat} {call : Call} {p : Point}
    (here : s.threads[i]? = some ⟨call, .running p⟩) (hp : p.installs) :
    s.world.controller.state.isBusy := by
  obtain ⟨g, hrole⟩ := p.role_of_installs hp
  exact h.busy here hrole

/-- While a call is left with nothing but cleanup, no request is accepted. -/
lemma Secure.generation_eq (h : Secure setup environment kept s) (patient : Patient s t) {i : Nat}
    {call : Call} {p : Point} (here : s.threads[i]? = some ⟨call, .running p⟩) (cleans : p.cleans)
    (free : p.role = .free) :
    t.world.controller.generation = s.world.controller.generation := by
  have hidle := h.idle i call p here cleans free
  exact patient ⟨by simp [Controller.accepts, hidle], i, call, p, here, cleans⟩

/-- What a call relies on stays when another one goes on. -/
lemma Secure.stays_moved (h : Secure setup environment kept s) (steady : Steady s) {i j : Nat}
    {call call' : Call} {p q : Point} {w : World} {st : Status}
    (here : s.threads[i]? = some ⟨call, .running p⟩)
    (goes : Goes setup s.world p w st) (patient : Patient s (s.moved i call p w st)) (ne : j ≠ i)
    (there : s.threads[j]? = some ⟨call', .running q⟩) :
    q.Secured setup environment kept (s.moved i call p w st) j := by
  have hdeposit (calm : p.installs → False) : (s.moved i call p w st).deposit? = s.deposit? := by
    refine goes.deposit_eq fun g target package layout hp => calm ?_
    rw [hp]
    rfl
  refine (h.points j call' q there).mono (goes.handed_eq (.inl (Ne.symm ne))) ?_
    (fun deposit hlast => (h.past deposit hlast).1) ?_ ?_
  · intro g stage hrole
    refine ⟨rfl, fun path _ => ?_, hdeposit fun hinstalls => ?_⟩
    · have hfiles := steady.files_of_goes there (by rw [hrole]; trivial) ne.symm here goes
      exact congrArg (FileSystem.read · path) hfiles
    · obtain ⟨g', hrole'⟩ := p.role_of_installs hinstalls
      exact ne (steady.staged_unique there here hrole hrole')
  · exact fun _ => rfl
  · intro hcleans hfree
    refine ⟨id, hdeposit fun hinstalls => ?_, h.generation_eq patient there hcleans hfree⟩
    exact not_busy_of_idle (h.idle j call' q there hcleans hfree)
      (steady.busy_of_installs here hinstalls)

/-- What a call relies on stays when another one gets an answer. -/
lemma Secure.stays_answered {timeout : Duration} (h : Secure setup environment kept s)
    (steady : Steady s) (recovery : setup.recovery = some (.environment timeout))
    (boots : around.SingleBoot environment) (keeps : around.KeepsDownloads setup) {i j : Nat}
    {call call' : Call} {p q : Point} {e : Effect} {a : Answer} {d : σ} {files : FileSystem}
    (here : s.threads[i]? = some ⟨call, .running p⟩) (asks : p.move setup s.world = .effect e)
    (gets : around.answers e s.device s.world.files a d files) (ne : j ≠ i)
    (there : s.threads[j]? = some ⟨call', .running q⟩) :
    q.Secured setup environment kept (s.answered i call p e a d files) j := by
  have hsame (other : p.installs → False) (busy : s.world.controller.state ≠ .idle) :
      environment d = environment s.device := by
    rcases h.environment_eq boots here asks gets with hsame | hinstalls | ⟨package, rest, rfl⟩
    · exact hsame
    · exact (other hinstalls).elim
    · exact absurd (h.idle i call _ here rfl rfl) busy
  refine (h.points j call' q there).mono rfl ?_
    (fun deposit hlast => (h.past deposit hlast).1) ?_ ?_
  · intro g stage hrole
    have hbusy := steady.busy there hrole
    refine ⟨hsame (fun hinstalls => ?_) fun hidle => not_busy_of_idle hidle hbusy,
      keeps.answers _ _ _ _ _ _ gets, rfl⟩
    obtain ⟨g', hrole'⟩ := p.role_of_installs hinstalls
    exact ne (steady.staged_unique there here hrole hrole')
  · intro hrole
    have hstate := steady.fits there
    rw [hrole] at hstate
    change s.world.controller.state = .resetDecision at hstate
    refine hsame (fun hinstalls => ?_) (by simp [hstate])
    have hbusy := steady.busy_of_installs here hinstalls
    simp [SessionState.isBusy, SessionState.isOpen, SessionState.isLate, hstate] at hbusy
  · intro hcleans hfree
    refine ⟨fun hflag => ?_, rfl, rfl⟩
    have hother : p.installs = false := by
      rw [← Bool.not_eq_true]
      exact fun hinstalls => not_busy_of_idle (h.idle j call' q there hcleans hfree)
        (steady.busy_of_installs here hinstalls)
    rwa [← h.environment_of_flagged boots recovery here asks gets hother hflag]

/-- What calls rely on stays with every step. -/
lemma Secure.points_step {timeout : Duration} (h : Secure setup environment kept s)
    (steady : Steady s) (recovery : setup.recovery = some (.environment timeout))
    (boots : around.SingleBoot environment) (keeps : around.KeepsDownloads setup)
    (step : Step setup around s t) (patient : Patient s t) :
    t.All fun i _ p => p.Secured setup environment kept t i := by
  cases step with
  | start may =>
    exact h.points.start (fun j call p there _ => h.still there rfl (fun _ _ => rfl) rfl rfl)
      trivial
  | @move i call p w st here goes =>
    replace goes := goes_of_move goes
    refine h.points.set here (fun j call' q ne there _ =>
      h.stays_moved steady here goes patient ne there) fun p' hp' => ?_
    dsimp only at hp'
    subst hp'
    exact goes.secured steady recovery h here
  | @answer i call p e a d files here asks gets =>
    refine h.points.set here (fun j call' q ne there _ =>
      h.stays_answered steady recovery boots keeps here asks gets ne there) fun p' hp' => ?_
    obtain rfl : p.resume a = p' := by simpa using hp'
    exact h.resumed boots keeps recovery here asks gets
  | @wake i call p here waits =>
    refine h.points.set here (fun j call' q _ there _ =>
      h.still there rfl (fun _ _ => rfl) rfl rfl) fun p' hp' => ?_
    obtain rfl : p.wake = p' := by simpa using hp'
    have hp := h.still (t := { s with threads := s.threads.set i ⟨call, .running p.wake⟩ }) here rfl
      (fun _ _ => rfl) rfl rfl
    cases p with
    | pushing => exact hp.elim
    | _ => exact hp
  | engine goes => exact fun j call p there => h.still there rfl (fun _ _ => rfl) rfl rfl
  | drift goes =>
    exact fun j call p there => h.still there (boots.drifts _ _ _ _ goes)
      (keeps.drifts _ _ _ _ goes) rfl rfl

end Session

end DeviceUpdate
