import DeviceUpdate.Proofs.Environment
import DeviceUpdate.Proofs.Session.Files

/-!
# Devices with one system partition

On such a device all updates are staged, and an install is a recovery request in the environment of
the bootloader. Only the call that an update rests on makes one, and only a call that is left with
nothing else takes one back. So whenever no install is going on, a pending request names the last
package that was installed.
-/

namespace DeviceUpdate

/-- What an install leaves: the update was not given back to the calls that bring it. -/
def Controller.PastInstall (c : Controller) : Prop :=
  ¬ c.state.isOpen ∧ c.state ≠ .finalizing ∧
    (c.state = .installing ∨ c.state = .cancelled → c.active.isSome)

/-- It has nothing for a call that sets an update up or undoes one. -/
lemma Controller.PastInstall.not_vacant {c : Controller} (past : c.PastInstall)
    (state : c.state = .requested ∨ c.state = .cancelled) (none : c.active = none) : False := by
  obtain ⟨hopen, -, hactive⟩ := past
  rcases state with hstate | hstate
  · exact hopen (.inl hstate)
  · have hsome := hactive (.inr hstate)
    rw [none] at hsome
    cases hsome

namespace Session

variable {σ : Type} {setup : Setup} {around : Surroundings σ} {s t : System σ}
  {environment : σ → Environment}

/-- The device has one system partition, and nothing but its effects touches the environment. -/
structure Surroundings.SingleBoot (around : Surroundings σ) (environment : σ → Environment) :
    Prop where
  answers : ∀ e d files a d' files', around.answers e d files a d' files' →
    e.Single (environment d) a (environment d')
  drifts : ∀ d files d' files', around.drifts d files d' files' → environment d' = environment d

/-- A path in the download directory. -/
def InDownloads (setup : Setup) (path : String) : Prop :=
  ∃ name : String, '/' ∉ name.toList ∧ path = Path.join setup.config.downloadDirectory name

/-- What is read in the download directory stays the same. -/
def SameDownloads (setup : Setup) (files files' : FileSystem) : Prop :=
  ∀ path, InDownloads setup path → files'.read path = files.read path

/-- Nobody but the calls touches the download directory. -/
structure Surroundings.KeepsDownloads (around : Surroundings σ) (setup : Setup) : Prop where
  answers : ∀ e d files a d' files', around.answers e d files a d' files' →
    SameDownloads setup files files'
  drifts : ∀ d files d' files', around.drifts d files d' files' → SameDownloads setup files files'

/-- The delivery is a file in the download directory. -/
def Lands (setup : Setup) : Delivery → Prop
  | .staged path _ => InDownloads setup path
  | .streaming _ => False

lemma Lands.of_closed {d e : Delivery} (h : Lands setup d) (closed : d.closed = e.closed) :
    Lands setup e := by
  cases d with
  | streaming stream => exact h.elim
  | staged path file =>
    obtain ⟨file', rfl⟩ := Delivery.staged_of_closed closed.symm rfl
    exact h

lemma inDownloads_of_acceptable {name : String} (h : acceptableFileName name) :
    InDownloads setup (Path.join setup.config.downloadDirectory name) :=
  ⟨name, not_slash_of_acceptable h, rfl⟩

/-! ### Installed packages -/

/-- A package that was installed, as it read when it was handed over. -/
structure Deposit where
  generation : Nat
  package : String
  content : Except FileError Bytes

/-- What the call handed over last. -/
def handedBy? (i : Nat) : List (Nat × Event) → Option (Except FileError Bytes)
  | [] => none
  | (j, .handed _ _ content) :: rest => if j = i then some content else handedBy? i rest
  | _ :: rest => handedBy? i rest

/-- The last package that was installed. -/
def lastDeposit? : List (Nat × Event) → Option Deposit
  | [] => none
  | (i, .installed g package (.ok _)) :: rest => (handedBy? i rest).map (⟨g, package, ·⟩)
  | _ :: rest => lastDeposit? rest

def System.deposit? (s : System σ) : Option Deposit := lastDeposit? s.history

/-- The last package that was installed is of another update. -/
def System.Undeposited (s : System σ) (generation : Nat) : Prop :=
  ∀ deposit, s.deposit? = some deposit → deposit.generation ≠ generation

lemma Tells.handed_eq {i j : Nat} {w w' : World} {p : Point} {st : Status} {e : Event}
    {history : List (Nat × Event)} (h : Tells setup w p w' st e)
    (other : j ≠ i ∨ ∀ g target package, p ≠ .checking g target package) :
    handedBy? i ((j, e) :: history) = handedBy? i history := by
  cases h with
  | handed owner =>
    rcases other with hne | hne
    · rw [handedBy?, if_neg hne]
    · exact absurd rfl (hne _ _ _)
  | _ => rfl

lemma Tells.deposit_eq {i : Nat} {w w' : World} {p : Point} {st : Status} {e : Event}
    {history : List (Nat × Event)} (h : Tells setup w p w' st e)
    (other : ∀ g target package layout,
      p ≠ .installing g target package (.done (.ok layout))) :
    lastDeposit? ((i, e) :: history) = lastDeposit? history := by
  cases h with
  | @installed g target package result =>
    cases result with
    | ok layout => exact absurd rfl (other _ _ _ _)
    | error e => rfl
  | _ => rfl

lemma history_moved (s : System σ) (i : Nat) (call : Call) (p : Point) (w : World) (st : Status) :
    (s.moved i call p w st).history = s.history ∨ ∃ e, Event.of? s.world p w st = some e ∧
      (s.moved i call p w st).history = (i, e) :: s.history := by
  unfold System.moved
  cases Event.of? s.world p w st with
  | none => exact .inl rfl
  | some e => exact .inr ⟨e, rfl, rfl⟩

/-- Only a call that hands a package over changes what it handed over. -/
lemma Goes.handed_eq {i j : Nat} {call : Call} {p : Point} {w : World} {st : Status}
    (goes : Goes setup s.world p w st)
    (other : j ≠ i ∨ ∀ g target package, p ≠ .checking g target package) :
    handedBy? i (s.moved j call p w st).history = handedBy? i s.history := by
  rcases history_moved s j call p w st with hsame | ⟨e, hlog, hnew⟩
  · rw [hsame]
  · rw [hnew]
    exact (goes.tells hlog).handed_eq other

/-- Only the end of an install changes what was installed last. -/
lemma Goes.deposit_eq {i : Nat} {call : Call} {p : Point} {w : World} {st : Status}
    (goes : Goes setup s.world p w st)
    (other : ∀ g target package layout,
      p ≠ .installing g target package (.done (.ok layout))) :
    (s.moved i call p w st).deposit? = s.deposit? := by
  unfold System.deposit?
  rcases history_moved s i call p w st with hsame | ⟨e, hlog, hnew⟩
  · rw [hsame]
  · rw [hnew]
    exact (goes.tells hlog).deposit_eq other

/-- A recovery request is pending, and the package was installed last. -/
def System.Pending (s : System σ) (environment : σ → Environment) (deposit : Deposit) : Prop :=
  (environment s.device).Flagged ∧ s.deposit? = some deposit

/-- The step of a later update changes what a pending package reads. -/
def System.Disturbs (s t : System σ) (environment : σ → Environment) : Prop :=
  ∃ deposit, s.Pending environment deposit ∧
    deposit.generation < s.world.controller.generation ∧
      t.world.files.read deposit.package ≠ s.world.files.read deposit.package

/-! ### No streams -/

section Control

variable {c c' : Controller} {r r' : Role}

/-- Without streams only a request takes the controller out of the idle state. -/
lemma Control.idle (h : Control r c r' c') (fits : r.Fits c) (staged : ¬ r.streams)
    (idle : c.state = .idle) : c'.state = .idle ∨ c'.generation ≠ c.generation := by
  have hrelease (g : Nat) : (c.releaseIfCurrent g).state = .idle := by
    rcases c.releaseIfCurrent_cases g with heq | heq <;> rw [heq]
    · exact idle
    · rfl
  cases h with
  | accept free => exact .inr (Nat.succ_ne_self _)
  | settle delivery target owner => exact .inl idle
  | receive open_ update target mode => simp [SessionState.isOpen, idle] at open_
  | cancelSetup open_ none => simp [SessionState.isOpen, idle] at open_
  | cancelActive open_ update => simp [SessionState.isOpen, idle] at open_
  | cancelEnd late => simp [SessionState.isLate, idle] at late
  | resetBegin done => simp [idle] at done
  | @resetEnd scheduled c =>
    have hstate : c.state = .resetDecision := fits
    simp [idle] at hstate
  | writeFailed open_ update mode => exact .inl rfl
  | setupFailed => exact .inl (hrelease _)
  | released => exact .inl (hrelease _)
  | install owner =>
    obtain ⟨-, hstate | hstate, -⟩ := fits
    · simp [Stage.covers, idle] at hstate
    · simp [idle] at hstate
  | conclude outcome =>
    cases hm : outcome.mode with
    | streaming => simp [hm, Role.ofOutcome, Role.streams] at staged
    | staged =>
      rw [hm] at fits
      obtain ⟨-, hstate | hstate, -⟩ := fits
      · simp [Stage.covers, idle] at hstate
      · simp [idle] at hstate
  | pushFailed => simp [Role.streams] at staged
  | _ => exact .inl idle

/-- An outcome is kept only while the update is completed. -/
lemma Control.outcome (h : Control r c r' c') (fits : r.Fits c) (staged : ¬ r.streams)
    (closed : c.outcome.isSome → c.state = .completed) :
    c'.outcome.isSome → c'.state = .completed := by
  -- in all states but this one there is nothing to keep
  have hnone (other : c.state ≠ .completed) : ¬ c.outcome.isSome := fun hsome =>
    other (closed hsome)
  have hopen (open_ : c.state.isOpen) : ¬ c.outcome.isSome :=
    hnone fun hstate => by simp [SessionState.isOpen, hstate] at open_
  intro hsome
  cases h with
  | accept free => cases hsome
  | settle delivery target owner => exact closed hsome
  | receive open_ update target mode => exact absurd hsome (hopen open_)
  | cancelSetup open_ none => exact absurd hsome (hopen open_)
  | cancelActive open_ update => exact absurd hsome (hopen open_)
  | cancelEnd late =>
    refine absurd hsome (hnone fun hstate => ?_)
    simp [SessionState.isLate, hstate] at late
  | resetBegin done => cases hsome
  | @resetEnd scheduled c =>
    have hstate : c.state = .resetDecision := fits
    exact absurd hsome (hnone fun hdone => by simp [hdone] at hstate)
  | writeFailed open_ update mode => exact absurd hsome (hopen open_)
  | setupFailed =>
    obtain ⟨-, hstate, -⟩ := fits
    rw [Controller.releaseIfCurrent_outcome] at hsome
    exact absurd hsome (hnone fun hdone => by simp [hdone] at hstate)
  | released =>
    obtain ⟨-, hstate, -⟩ := fits
    rw [Controller.releaseIfCurrent_outcome] at hsome
    exact absurd hsome (hnone fun hdone => by simp [hdone] at hstate)
  | install owner =>
    obtain ⟨-, hstate, -⟩ := fits
    refine absurd hsome (hnone fun hdone => ?_)
    simp [Stage.covers, hdone] at hstate
  | @conclude g c outcome =>
    obtain ⟨-, heq⟩ | ⟨-, -, heq⟩ | ⟨-, -, heq⟩ := c.conclude_cases g outcome <;>
      rw [heq] at hsome ⊢
    · exact closed hsome
    · cases hsome
  | pushFailed => simp [Role.streams] at staged
  | _ => exact closed hsome

/-- What an install left stays until the next request. -/
lemma Control.pastInstall (h : Control r c r' c') (fits : r.Fits c) (staged : ¬ r.streams)
    (past : c.PastInstall) (same : c'.generation = c.generation) : c'.PastInstall := by
  have hempty := past.not_vacant
  obtain ⟨hopen, hfinal, hactive⟩ := past
  cases h with
  | accept free => exact absurd same (Nat.succ_ne_self _)
  | @settle g c delivery target owner => exact (hempty fits.2.1 fits.2.2).elim
  | receive open_ update target mode => exact absurd open_ hopen
  | cancelSetup open_ none => exact absurd open_ hopen
  | cancelActive open_ update => exact absurd open_ hopen
  | cancelEnd late =>
    refine ⟨by simp [SessionState.isOpen], by simp, fun _ => hactive ?_⟩
    rcases late with hstate | hstate
    · exact absurd hstate hfinal
    · exact .inl hstate
  | resetBegin done => exact ⟨by simp [SessionState.isOpen], by simp, by simp⟩
  | @resetEnd scheduled c =>
    cases scheduled <;> exact ⟨by simp [SessionState.isOpen], by simp, by simp⟩
  | writeFailed open_ update mode => exact absurd open_ hopen
  | setupFailed => exact (hempty fits.2.1 fits.2.2).elim
  | released => exact (hempty (.inr fits.2.1) fits.2.2).elim
  | install owner =>
    obtain ⟨-, hstate, -⟩ := fits
    rcases hstate with hstate | hstate
    · exact absurd hstate hfinal
    · exact absurd hstate (Controller.owns_iff.mp owner).2
  | @conclude g c outcome =>
    obtain ⟨-, heq⟩ | ⟨-, -, heq⟩ | ⟨-, -, heq⟩ := c.conclude_cases g outcome <;> rw [heq]
    · exact ⟨hopen, hfinal, hactive⟩
    · exact ⟨by simp [SessionState.isOpen, Controller.release],
        by simp [Controller.release], by simp [Controller.release]⟩
    · exact ⟨by simp [SessionState.isOpen], by simp, by simp⟩
  | pushFailed => simp [Role.streams] at staged
  | _ => exact ⟨hopen, hfinal, hactive⟩

end Control

/-! ### What calls rely on -/

/-- A call is installing a package. -/
def Point.installs : Point → Bool
  | .installing _ _ _ _ => true
  | _ => false

def System.Installing (s : System σ) : Prop :=
  ∃ (i : Nat) (call : Call) (p : Point), s.threads[i]? = some ⟨call, .running p⟩ ∧ p.installs

/-- A pending recovery request names the package that was installed last, which (if `kept`) still
reads as it did then. -/
def Faithful (kept : Prop) (env : Environment) (last : Option Deposit) (files : FileSystem) :
    Prop :=
  env.Flagged → ∃ deposit, last = some deposit ∧ env.Names deposit.package ∧
    (kept → files.read deposit.package = deposit.content)

lemma Faithful.mono {kept : Prop} {env : Environment} {last : Option Deposit}
    {files files' : FileSystem} (h : Faithful kept env last files)
    (same : kept → env.Flagged → ∀ deposit, last = some deposit →
      files'.read deposit.package = files.read deposit.package) :
    Faithful kept env last files' := by
  intro hflag
  obtain ⟨deposit, hdeposit, hnames, hread⟩ := h hflag
  refine ⟨deposit, hdeposit, hnames, fun hkept => ?_⟩
  rw [same hkept hflag deposit hdeposit]
  exact hread hkept

/-- What the call `i` relies on at this point. -/
def Point.Secured (setup : Setup) (environment : σ → Environment) (kept : Prop) (s : System σ)
    (i : Nat) : Point → Prop
  | .choosing _ _ file _ rest => rest.Asking ∧ acceptableFileName file
  | .checkingSpace _ _ file _ => acceptableFileName file
  | .creating _ _ path => InDownloads setup path
  | .asking rest => rest.Asking
  | .planning rest => rest.Asking ∧ (environment s.device).Flagged
  | .scheduling _ => (environment s.device).Flagged
  | .preparing _ _ _ | .starting _ _ _ _ | .stopping _ _ _ _ | .pushing _ _ _ _ _
  | .pushFailed _ _ | .judging _ _ _ _ | .swapping _ => False
  | .settling _ _ delivery | .discarding _ delivery _ => Lands setup delivery
  | .assembling g _ _ | .dropping g _ _ => s.Undeposited g
  | .removingManifest g _ _ result =>
    s.Undeposited g ∧ ∀ package, result = .ok package → InDownloads setup package
  | .checking g _ package => s.Undeposited g ∧ InDownloads setup package
  | .installing g _ package rest =>
    s.Undeposited g ∧ InDownloads setup package ∧
      handedBy? i s.history = some (s.world.files.read package) ∧
      ∃ before, rest.Installing before package (environment s.device) ∧
        Faithful kept before s.deposit? s.world.files
  | .installed g _ _ (.error _) => s.Undeposited g
  | .installed _ _ _ (.ok layout) => layout = .single ∧ (environment s.device).Flagged
  | .concluding _ outcome _ _ =>
    outcome.mode = .staged ∧ (outcome.success → (environment s.device).Flagged)
  | .withdrawing _ rest => rest.Withdrawing ∧
      (rest = Install.withdraw setup.recovery ∨ ¬ (environment s.device).Flagged)
  | .removing _ _ =>
    (environment s.device).Flagged → s.Undeposited s.world.controller.generation
  | _ => True

def Status.Secured (setup : Setup) (environment : σ → Environment) (kept : Prop) (s : System σ)
    (i : Nat) : Status → Prop
  | .running p => p.Secured setup environment kept s i
  | .returned _ => True

/-- What is known of a system on such a device. -/
structure Secure (setup : Setup) (environment : σ → Environment) (kept : Prop) (s : System σ) :
    Prop where
  layout : s.world.shared.classifier.known ≠ some .dual
  delivery : ∀ u, s.world.controller.active = some u → Lands setup u.delivery
  completed : s.world.controller.outcome.isSome → s.world.controller.state = .completed
  outcome : ∀ o, s.world.controller.outcome = some o →
    o.mode = .staged ∧ (o.success → (environment s.device).Flagged)
  past : ∀ deposit, s.deposit? = some deposit → InDownloads setup deposit.package ∧
    deposit.generation ≤ s.world.controller.generation ∧
      (deposit.generation = s.world.controller.generation → s.world.controller.PastInstall)
  idle : s.All fun _ _ p => p.cleans → p.role = .free → s.world.controller.state = .idle
  points : s.All fun i _ p => p.Secured setup environment kept s i
  faithful : ¬ s.Installing →
    Faithful kept (environment s.device) s.deposit? s.world.files

variable {kept : Prop}

lemma Point.Secured.staged {i : Nat} {p : Point} (h : p.Secured setup environment kept s i) :
    ¬ p.role.streams := by
  cases p with
  | pushing | pushFailed | judging => exact h.elim
  | stopping stream rest release reply => exact h.elim
  | concluding g outcome result otherwise =>
    simp [Point.role, Role.ofOutcome, h.1, Role.streams]
  | _ => simp [Point.role, Role.streams]

/-- While an update takes data it was not installed. -/
lemma Secure.undeposited (h : Secure setup environment kept s)
    (open_ : s.world.controller.state.isOpen) :
    s.Undeposited s.world.controller.generation :=
  fun deposit hdeposit hsame => ((h.past deposit hdeposit).2.2 hsame).1 open_

/-- Every delivery stays a file in the download directory. -/
lemma Goes.lands {p : Point} {w w' : World} {st : Status} {i : Nat} (goes : Goes setup w p w' st)
    (hp : p.Secured setup environment kept s i)
    (h : ∀ u, w.controller.active = some u → Lands setup u.delivery) :
    ∀ u, w'.controller.active = some u → Lands setup u.delivery := by
  intro u hu
  obtain ⟨-, ⟨v, hv, -, hclosed⟩ | ⟨g, rfl, -⟩⟩ := goes.active_back hu
  · exact (h v hv).of_closed hclosed
  · exact hp

/-- The boot layout is never taken for that of two partitions. -/
lemma Goes.layout {p : Point} {w w' : World} {st : Status} {i : Nat} (goes : Goes setup w p w' st)
    (hp : p.Secured setup environment kept s i) (h : w.shared.classifier.known ≠ some .dual) :
    w'.shared.classifier.known ≠ some .dual := by
  cases goes with
  | request h' => cases h' <;> exact h
  | data h' => cases h' <;> exact h
  | cancel h' => cases h' <;> exact h
  | reset h' => cases h' <;> exact h
  | inside wraps hmove =>
    cases wraps with
    | choosing => exact (Procedure.Asking.step hp.1 h hmove).2
    | asking => exact (Procedure.Asking.step hp h hmove).2
    | planning => exact (Procedure.Asking.step hp.1 h hmove).2
    | withdrawing => exact (Procedure.Withdrawing.step hp.1 h hmove).2
    | installing =>
      obtain ⟨-, -, -, before, hrest, -⟩ := hp
      exact (Procedure.Installing.step hrest h hmove).2
    | preparing => exact hp.elim
    | swapping => exact hp.elim
  | _ => exact h

end Session

end DeviceUpdate
