import DeviceUpdate.Proofs.Session.Grounds
import DeviceUpdate.Proofs.Session.Layout
import DeviceUpdate.Proofs.Session.Replay

/-!
# Which restart follows an install

A reset that takes over a success swaps the partitions if the image was streamed, asks for the boot
layout, and schedules a restart. `Course` lists what such a call has told by the point where it
stands. By then the layout is known, so the plan is that of the install, and nothing comes between
the swap and the restart.
-/

namespace DeviceUpdate.Session

variable {σ : Type} {setup : Setup} {around : Surroundings σ} {s t : System σ}

/-- The preparation of streams that belongs to the setup. -/
abbrev prepared (setup : Setup) : StreamPreparation := .ofConfig setup.config

/-- A reset of this number acts on the outcome. -/
structure Fits (number : Nat) (o : UpdateOutcome) : Prop where
  named : o.target.number = number
  success : o.success

/-- What a reset has told when it goes on to plan a restart. -/
inductive Ready (setup : Setup) (number g : Nat) (o : UpdateOutcome) : List Event → Prop
  | staged (fits : Fits number o) (mode : o.mode = .staged) :
      Ready setup number g o [.consumed g (some o)]
  | swapped {a : Answer} {output : CommandOutput} (fits : Fits number o)
      (mode : o.mode = .streaming)
      (works : (prepared setup).swapCommand.expectSuccess a = .ok output) :
      Ready setup number g o
        [.swapped, .performed (.run (prepared setup).swapCommand) a, .consumed g (some o)]

lemma Ready.fits {number g : Nat} {o : UpdateOutcome} {told : List Event}
    (h : Ready setup number g o told) : Fits number o := by
  cases h <;> assumption

lemma Ready.consumed {number g : Nat} {o : UpdateOutcome} {told : List Event}
    (h : Ready setup number g o told) : .consumed g (some o) ∈ told := by
  cases h <;> simp

/-- The reset is about to answer that a restart is scheduled or not, or has answered so. -/
def Status.Decides (st : Status) (scheduled : Bool) : Prop :=
  st = .running (.resetting scheduled) ∨
    st = .returned (.reset { rebootScheduled := scheduled })

/-- What a reset of this number has told, and where it stands then. -/
inductive Course (setup : Setup) (known : Option BootLayout) (number : Nat) :
    List Event → Status → Prop
  | called {version : Version} :
      Course setup known number [] (.running (.entry (.reset number version)))
  | declined {decision : ResetDecision} :
      Course setup known number [] (.returned (.reset decision))
  | unfit {g : Nat} {outcome : Option UpdateOutcome} {st : Status}
      (other : ∀ o, outcome = some o → ¬ Fits number o) (decides : st.Decides false) :
      Course setup known number [.consumed g outcome] st
  | swapping {g : Nat} {o : UpdateOutcome} (fits : Fits number o) (mode : o.mode = .streaming) :
      Course setup known number [.consumed g (some o)]
        (.running (.swapping (prepared setup).swapActiveSystem))
  | answered {g : Nat} {o : UpdateOutcome} {a : Answer} (fits : Fits number o)
      (mode : o.mode = .streaming) :
      Course setup known number
        [.performed (.run (prepared setup).swapCommand) a, .consumed g (some o)]
        (.running (.swapping (.done
          (((prepared setup).swapCommand.expectSuccess a).map fun _ => ()))))
  | unswapped {g : Nat} {o : UpdateOutcome} {a : Answer} {e : UpdateError} {st : Status}
      (fits : Fits number o) (mode : o.mode = .streaming)
      (fails : (prepared setup).swapCommand.expectSuccess a = .error e)
      (decides : st.Decides false) :
      Course setup known number
        [.performed (.run (prepared setup).swapCommand) a, .consumed g (some o)] st
  | planning {g : Nat} {o : UpdateOutcome} {told : List Event}
      (ready : Ready setup number g o told) :
      Course setup known number told (.running (.planning Procedure.bootLayout))
  | planned {g : Nat} {o : UpdateOutcome} {told : List Event} {layout : BootLayout}
      (ready : Ready setup number g o told) (is_known : known = some layout) :
      Course setup known number told (.running (.planning (.done layout)))
  | scheduling {g : Nat} {o : UpdateOutcome} {told : List Event} {plan : RebootPlan}
      (ready : Ready setup number g o told) :
      Course setup known number told (.running (.scheduling plan))
  | scheduled {g : Nat} {o : UpdateOutcome} {told : List Event} {plan : RebootPlan} {a : Answer}
      {st : Status} (ready : Ready setup number g o told) (decides : st.Decides true) :
      Course setup known number (.performed (.restart plan) a :: told) st

variable {known known' : Option BootLayout} {number : Nat} {told : List Event}

lemma Course.mono {st : Status} (h : Course setup known number told st)
    (keeps : ∀ layout, known = some layout → known' = some layout) :
    Course setup known' number told st := by
  cases h with
  | called => exact .called
  | declined => exact .declined
  | unfit other decides => exact .unfit other decides
  | swapping fits mode => exact .swapping fits mode
  | answered fits mode => exact .answered fits mode
  | unswapped fits mode fails decides => exact .unswapped fits mode fails decides
  | planning ready => exact .planning ready
  | planned ready is_known => exact .planned ready (keeps _ is_known)
  | scheduling ready => exact .scheduling ready
  | scheduled ready decides => exact .scheduled ready decides

/-! ### How a reset goes on -/

section Goes

variable {w w' : World} {st : Status}

lemma Goes.of_reset {number : Nat} {version : Version}
    (h : Goes setup w (.entry (.reset number version)) w' st) :
    (∃ decision, st = .returned (.reset decision)) ∨
      ∃ p, st = .running p ∧ ResetPath setup number w.controller.outcome p := by
  generalize hp : Point.entry (.reset number version) = p at h
  cases h with
  | reset h =>
    cases hp
    cases h with
    | refused decision unscheduled => exact .inl ⟨decision, rfl⟩
    | begun done path => exact .inr ⟨_, rfl, path⟩
  | inside wraps h => cases wraps <;> cases hp
  | _ => cases hp

lemma Goes.of_swapping {result : Except UpdateError Unit}
    (h : Goes setup w (.swapping (.done result)) w' st) :
    result = .ok () ∧ st = .running (.planning Procedure.bootLayout) ∨
      (∃ e, result = .error e) ∧ st = .running (.resetting false) := by
  generalize hp : Point.swapping (.done result) = p at h
  cases h with
  | inside wraps h =>
    cases wraps <;> cases hp
    cases h
  | swapped =>
    cases hp
    exact .inl ⟨rfl, rfl⟩
  | notSwapped =>
    cases hp
    exact .inr ⟨⟨_, rfl⟩, rfl⟩
  | _ => cases hp

lemma Goes.not_swapActiveSystem {preparation : StreamPreparation} :
    ¬ Goes setup w (.swapping preparation.swapActiveSystem) w' st := by
  intro h
  rw [preparation.swapActiveSystem_eq] at h
  generalize hp : Point.swapping _ = p at h
  cases h with
  | inside wraps h =>
    cases wraps <;> cases hp
    cases h
  | _ => cases hp

/-- A reset that asks for a layout that is known gets it at once. -/
lemma Goes.of_planning {layout : BootLayout}
    (h : Goes setup w (.planning Procedure.bootLayout) w' st)
    (known : w.shared.classifier.known = some layout) (free : w.shared.classifier.busy = false) :
    st = .running (.planning (.done layout)) := by
  generalize hp : Point.planning Procedure.bootLayout = p at h
  cases h with
  | inside wraps h =>
    cases wraps <;> cases hp
    simp only [Procedure.bootLayout, Procedure.move, free, known, Bool.false_eq_true, if_false,
      Procedure.Move.step.injEq] at h
    rw [← h.2]
  | _ => cases hp

lemma Goes.of_planned {layout : BootLayout} (h : Goes setup w (.planning (.done layout)) w' st)
    (definite : layout ≠ .unknown) : ∃ plan, st = .running (.scheduling plan) := by
  generalize hp : Point.planning (.done layout) = p at h
  cases h with
  | inside wraps h =>
    cases wraps <;> cases hp
    cases h
  | planned possible => exact ⟨_, rfl⟩
  | notPlanned impossible =>
    cases hp
    cases layout with
    | unknown => exact absurd rfl definite
    | _ => cases impossible
  | _ => cases hp

lemma Goes.not_scheduling {plan : RebootPlan} : ¬ Goes setup w (.scheduling plan) w' st := by
  intro h
  generalize hp : Point.scheduling plan = p at h
  cases h with
  | inside wraps h => cases wraps <;> cases hp
  | _ => cases hp

lemma Goes.of_resetting {scheduled : Bool} (h : Goes setup w (.resetting scheduled) w' st) :
    st = .returned (.reset { rebootScheduled := scheduled }) := by
  generalize hp : Point.resetting scheduled = p at h
  cases h with
  | inside wraps h => cases wraps <;> cases hp
  | resetDone =>
    cases hp
    rfl
  | _ => cases hp

end Goes

lemma Status.Decides.point {p : Point} {scheduled : Bool}
    (h : Status.Decides (.running p) scheduled) : p = .resetting scheduled := by
  rcases h with heq | heq
  · exact Status.running.inj heq
  · cases heq

/-- A reset that goes on by itself keeps to the course, if the layout is known once it acts on a
success. -/
lemma Course.goes {w w' : World} {p : Point} {st : Status}
    (h : Course setup w.shared.classifier.known number told (.running p))
    (goes : Goes setup w p w' st)
    (known_now : ∀ layout, w.shared.classifier.known = some layout → known' = some layout)
    (free : ∀ layout, w.shared.classifier.known = some layout → w.shared.classifier.busy = false)
    (definite : ∀ g o, .consumed g (some o) ∈ told → Fits number o →
      ∃ layout, w.shared.classifier.known = some layout ∧ layout ≠ .unknown) :
    Course setup known' number ((Event.of? w p w' st).toList ++ told) st := by
  have hready {g : Nat} {o : UpdateOutcome} (ready : Ready setup number g o told) :
      ∃ layout, w.shared.classifier.known = some layout ∧ layout ≠ .unknown :=
    definite g o ready.consumed ready.fits
  generalize hst : Status.running p = before at h
  cases h with
  | called =>
    obtain rfl := Status.running.inj hst
    obtain ⟨decision, rfl⟩ | ⟨q, rfl, path⟩ := goes.of_reset
    · exact .declined
    · simp only [Event.of?, Option.toList_some, List.singleton_append]
      generalize w.controller.outcome = outcome at path
      cases path with
      | refused other =>
        exact .unfit (fun o ho fits => other o ho fits.success fits.named) (.inl rfl)
      | swap same success mode => exact .swapping ⟨same, success⟩ mode
      | plan same success mode => exact .planning (.staged ⟨same, success⟩ mode)
  | declined => cases hst
  | unfit other decides =>
    obtain rfl := (hst ▸ decides).point
    obtain rfl := goes.of_resetting
    exact .unfit other (.inr rfl)
  | swapping fits mode =>
    obtain rfl := Status.running.inj hst
    exact absurd goes Goes.not_swapActiveSystem
  | @answered g o a fits mode =>
    obtain rfl := Status.running.inj hst
    obtain ⟨hresult, rfl⟩ | ⟨⟨e, hresult⟩, rfl⟩ := goes.of_swapping
    · cases hworks : (prepared setup).swapCommand.expectSuccess a with
      | ok output => exact .planning (.swapped fits mode hworks)
      | error e => simp [hworks, Except.map] at hresult
    · cases hworks : (prepared setup).swapCommand.expectSuccess a with
      | ok output => simp [hworks, Except.map] at hresult
      | error e => exact .unswapped fits mode hworks (.inl rfl)
  | unswapped fits mode fails decides =>
    obtain rfl := (hst ▸ decides).point
    obtain rfl := goes.of_resetting
    exact .unswapped fits mode fails (.inr rfl)
  | planning ready =>
    obtain rfl := Status.running.inj hst
    obtain ⟨layout, hknown, -⟩ := hready ready
    obtain rfl := goes.of_planning hknown (free layout hknown)
    exact .planned ready (known_now layout hknown)
  | @planned g o _ layout ready is_known =>
    obtain rfl := Status.running.inj hst
    obtain ⟨layout', hknown, hdefinite⟩ := hready ready
    obtain rfl := Option.some.inj (is_known.symm.trans hknown)
    obtain ⟨plan, rfl⟩ := goes.of_planned hdefinite
    exact .scheduling ready
  | scheduling ready =>
    obtain rfl := Status.running.inj hst
    exact absurd goes Goes.not_scheduling
  | scheduled ready decides =>
    obtain rfl := (hst ▸ decides).point
    obtain rfl := goes.of_resetting
    exact .scheduled ready (.inr rfl)

/-- So does a reset whose effect is answered. -/
lemma Course.answered_effect {w : World} {p : Point} {e : Effect} {a : Answer}
    (h : Course setup known number told (.running p)) (asks : p.move setup w = .effect e) :
    Course setup known' number (.performed e a :: told) (.running (p.resume a)) := by
  have hnever {scheduled : Bool} (hp : p = .resetting scheduled) : False := by
    subst hp
    cases asks
  generalize hst : Status.running p = before at h
  cases h with
  | called =>
    obtain rfl := Status.running.inj hst
    exact absurd asks (entry_ne_effect _ _)
  | declined => cases hst
  | unfit other decides => exact (hnever (hst ▸ decides).point).elim
  | swapping fits mode =>
    obtain rfl := Status.running.inj hst
    obtain rfl := Move.effect.inj asks
    exact .answered fits mode
  | answered fits mode =>
    obtain rfl := Status.running.inj hst
    simp [Point.move, advance, Procedure.move] at asks
  | unswapped fits mode fails decides => exact (hnever (hst ▸ decides).point).elim
  | planning ready =>
    obtain rfl := Status.running.inj hst
    obtain ⟨next, hnext⟩ := Procedure.perform_of_effect (effect_of_advance asks)
    cases hnext
  | planned ready is_known =>
    obtain rfl := Status.running.inj hst
    simp [Point.move, advance, Procedure.move] at asks
  | scheduling ready =>
    obtain rfl := Status.running.inj hst
    obtain rfl := Move.effect.inj asks
    exact .scheduled ready (.inl rfl)
  | scheduled ready decides => exact (hnever (hst ▸ decides).point).elim

/-- A reset does not wait for time to pass. -/
lemma Course.wake {p : Point} (h : Course setup known number told (.running p)) :
    Course setup known number told (.running p.wake) := by
  cases p with
  | pushing g target stream last rest =>
    generalize hst : Status.running _ = st at h
    cases h with
    | unfit other decides => cases (hst ▸ decides).point
    | unswapped fits mode fails decides => cases (hst ▸ decides).point
    | scheduled ready decides => cases (hst ▸ decides).point
    | _ => cases hst
  | _ => exact h

/-! ### All resets of a run -/

/-- Only a reset tells this. -/
def Event.OfReset : Event → Prop
  | .consumed _ _ => True
  | .performed e _ => e.Swaps
  | _ => False

/-- Every reset keeps to its course, and takes over what the update came to. -/
structure Steered (setup : Setup) (s : System σ) : Prop where
  course : s.Each fun i call st => ∀ number version, call = .reset number version →
    Course setup s.world.shared.classifier.known number (s.told i) st
  own : ∀ i e, (i, e) ∈ s.history → e.OfReset →
    ∃ number version st, s.threads[i]? = some ⟨.reset number version, st⟩
  bears : ∀ i g o, (i, .consumed g (some o)) ∈ s.history → s.Bears g o

/-- What holds in every run and bears on restarts. -/
structure Guided (setup : Setup) (s : System σ) : Prop where
  made : s.Made
  stays : s.Stays
  grounded : Grounded s
  questions : Questions s
  informed : Informed s
  steered : Steered setup s

lemma Guided.definite (h : Guided setup s) {i g number : Nat} {o : UpdateOutcome}
    (told : .consumed g (some o) ∈ s.told i) (fits : Fits number o) :
    ∃ layout, s.world.shared.classifier.known = some layout ∧ layout ≠ .unknown := by
  have hbears := h.steered.bears i g o (mem_told.mp told)
  rcases h.informed.known_of_bears hbears fits.success with ⟨hknown, -⟩ | ⟨hknown, -⟩
  · exact ⟨.dual, hknown, by simp⟩
  · exact ⟨.single, hknown, by simp⟩

lemma Guided.course_step (h : Guided setup s) (step : Step setup around s t) :
    t.Each fun i call st => ∀ number version, call = .reset number version →
      Course setup t.world.shared.classifier.known number (t.told i) st := by
  have hknown : ∀ layout, s.world.shared.classifier.known = some layout →
      t.world.shared.classifier.known = some layout :=
    fun _ known => h.questions.known_step step known
  refine h.steered.course.step step ?_ ?_ ?_ ?_ ?_
  · rintro i call st - - same hcourse number version hcall
    rw [same]
    exact (hcourse number version hcall).mono hknown
  · rintro call rfl number version rfl
    have hnone : (s.start (.reset number version)).told s.threads.length = [] := by
      refine List.eq_nil_iff_forall_not_mem.mpr fun e he => ?_
      exact absurd (h.made _ e (mem_told.mp he)) (Nat.lt_irrefl _)
    rw [hnone]
    exact .called
  · rintro i call p w st here goes rfl hcourse number version hcall
    rw [told_moved, if_pos rfl]
    exact (hcourse number version hcall).goes goes hknown
      (fun _ known => h.questions.free_of_known known) fun g o told fits => h.definite told fits
  · rintro i call p e a device files here asks - rfl hcourse number version hcall
    rw [told_answered, if_pos rfl]
    exact (hcourse number version hcall).answered_effect asks
  · rintro i call p here rfl hcourse number version hcall
    exact (hcourse number version hcall).wake

theorem Guided.step (h : Guided setup s) (step : Step setup around s t) : Guided setup t := by
  refine ⟨step.made h.made, step.stays h.stays, h.grounded.step step, h.questions.step step,
    h.informed.step h.questions h.stays step, h.course_step step, ?_, ?_⟩
  · intro i e he reset
    rcases step.logs he with hold | hnew
    · obtain ⟨number, version, st, here⟩ := h.steered.own i e hold reset
      exact ⟨number, version, step.same_call here⟩
    · cases hnew with
      | @told call p w st e here goes tells now =>
        have hserves := h.grounded.serving i call p here
        cases tells with
        | consumed hstep =>
          obtain rfl := hserves
          exact ⟨_, _, step.same_call here⟩
        | _ => cases reset
      | @performed call p f a device files here asks now =>
        obtain ⟨-, hswaps⟩ :=
          (asks_of_move asks).performs (h.stays i call p here) (h.informed.points i call p here)
        obtain ⟨rest, rfl⟩ := hswaps reset
        have hserves : call.isReset := h.grounded.serving i call _ here
        cases call with
        | reset number version => exact ⟨number, version, step.same_call here⟩
        | _ => cases hserves
  · intro i g o he
    rcases step.logs he with hold | hnew
    · exact step.extends.bears (h.steered.bears i g o hold)
    · refine step.extends.bears ?_
      generalize hevent : Event.consumed g (some o) = e at hnew
      cases hnew with
      | told here goes tells now =>
        cases tells with
        | consumed hstep =>
          obtain ⟨rfl, ho⟩ := Event.consumed.inj hevent
          exact h.grounded.backs.outcome o ho.symm
        | _ => cases hevent
      | performed here asks now => cases hevent

lemma Run.guided {w : World} {d : σ} (run : Run setup around (System.fresh w d) s)
    (controller : w.controller = {}) (free : w.shared.classifier.busy = false) :
    Guided setup s := by
  refine run.keeps ?_ fun hu step => hu.step step
  exact ⟨fun k e he => by simp [System.fresh] at he, System.all_fresh w d,
    grounded_fresh w d controller, questions_fresh w d free, informed_fresh w d,
    System.each_fresh w d, fun i e he => by simp [System.fresh] at he,
    fun i g o he => by simp [System.fresh] at he⟩

/-! ### The plan of a reset -/

/-- The call schedules a restart by this plan, however others go on: its own next steps come to
that. -/
inductive Heads (setup : Setup) (plan : RebootPlan) : World → Point → Prop
  | asks {w : World} : Heads setup plan w (.scheduling plan)
  | step {w w' : World} {p q : Point} (goes : p.move setup w = .step w' q)
      (rest : Heads setup plan w' q) : Heads setup plan w p

/-- The call `i` has scheduled a restart by this plan, or comes to that. -/
def System.Schedules (setup : Setup) (s : System σ) (i : Nat) (plan : RebootPlan) : Prop :=
  (∃ a, (i, .performed (.restart plan) a) ∈ s.history) ∨
    ∃ call p, s.threads[i]? = some ⟨call, .running p⟩ ∧ Heads setup plan s.world p

/-- The call `i` is a reset that was called when the update `g` was completed, went well, and had
the number that the reset names. -/
def System.Resets (s : System σ) (i g : Nat) (o : UpdateOutcome) : Prop :=
  (∃ version st, s.threads[i]? = some ⟨.reset o.target.number version, st⟩) ∧
    (i, .consumed g (some o)) ∈ s.history ∧ o.success

/-- The command ended with status 0. -/
def Answer.Fine (a : Answer) : Prop := ∃ output, a = .ok output ∧ output.success

/-- The reset is asking for the partitions to be swapped, or that failed. -/
def System.Unswapped (setup : Setup) (s : System σ) (i : Nat) : Prop :=
  s.point? i = some (.swapping (prepared setup).swapActiveSystem) ∨
    ∃ e a, e.Swaps ∧ (i, .performed e a) ∈ s.history ∧ ¬ Answer.Fine a

lemma fine_iff {c : Command} {a : Answer} :
    Answer.Fine a ↔ ∃ output, c.expectSuccess a = .ok output := by
  cases a with
  | error e => simp [Answer.Fine, Command.expectSuccess, bind, Except.bind]
  | ok output =>
    cases h : output.success <;>
      simp [Answer.Fine, Command.expectSuccess, bind, Except.bind, h, pure, Except.pure, throw,
        throwThe, MonadExceptOf.throw]

section Heads

variable {w : World} {layout : BootLayout} {plan : RebootPlan}

lemma heads_planned (follows : RebootPlan.ofLayout? layout = some plan) :
    Heads setup plan w (.planning (.done layout)) := by
  have hmove : Point.move setup w (.planning (.done layout)) = .step w (.scheduling plan) := by
    simp only [Point.move, advance, Procedure.move, follows]
  exact .step hmove .asks

lemma heads_planning (known : w.shared.classifier.known = some layout)
    (free : w.shared.classifier.busy = false) (follows : RebootPlan.ofLayout? layout = some plan) :
    Heads setup plan w (.planning Procedure.bootLayout) := by
  have hmove : Point.move setup w (.planning Procedure.bootLayout) =
      .step w (.planning (.done layout)) := by
    simp [Point.move, advance, Procedure.bootLayout, Procedure.move, free, known]
  exact .step hmove (heads_planned follows)

lemma heads_swapped (known : w.shared.classifier.known = some layout)
    (free : w.shared.classifier.busy = false) (follows : RebootPlan.ofLayout? layout = some plan) :
    Heads setup plan w (.swapping (.done (.ok ()))) := by
  have hmove : Point.move setup w (.swapping (.done (.ok ()))) =
      .step w (.planning Procedure.bootLayout) := rfl
  exact .step hmove (heads_planning known free follows)

end Heads

lemma not_swaps_restart (plan : RebootPlan) : ¬ Effect.Swaps (.restart plan) := by
  simp [Effect.Swaps]

/-- A reset swaps the partitions once, and only for the success of a streamed update. -/
lemma Course.swaps {st : Status} {e : Effect} {a : Answer}
    (h : Course setup known number told st) (swapped : .performed e a ∈ told) (swaps : e.Swaps) :
    (∃ g o, .consumed g (some o) ∈ told ∧ Fits number o ∧ o.mode = .streaming) ∧
      st ≠ .running (.swapping (prepared setup).swapActiveSystem) ∧
        ∀ e' a', .performed e' a' ∈ told → e'.Swaps → a' = a := by
  have hready {g : Nat} {o : UpdateOutcome} {told : List Event}
      (ready : Ready setup number g o told) (swapped : .performed e a ∈ told) :
      (∃ g o, .consumed g (some o) ∈ told ∧ Fits number o ∧ o.mode = .streaming) ∧
        ∀ e' a', .performed e' a' ∈ told → e'.Swaps → a' = a := by
    cases ready with
    | staged fits mode => simp at swapped
    | swapped fits mode works =>
      obtain ⟨rfl, rfl⟩ : e = _ ∧ a = _ := by simpa using swapped
      refine ⟨⟨g, o, by simp, fits, mode⟩, fun e' a' he' _ => ?_⟩
      exact (by simpa using he' : e' = _ ∧ a' = a).2
  cases h with
  | called => cases swapped
  | declined => cases swapped
  | unfit other decides => simp at swapped
  | swapping fits mode => simp at swapped
  | @answered g o _ fits mode =>
    obtain ⟨rfl, rfl⟩ : e = _ ∧ a = _ := by simpa using swapped
    refine ⟨⟨g, o, by simp, fits, mode⟩, fun heq => ?_, fun e' a' he' _ => ?_⟩
    · rw [StreamPreparation.swapActiveSystem_eq] at heq
      cases heq
    · exact (by simpa using he' : e' = _ ∧ a' = a).2
  | @unswapped g o _ _ _ fits mode fails decides =>
    obtain ⟨rfl, rfl⟩ : e = _ ∧ a = _ := by simpa using swapped
    refine ⟨⟨g, o, by simp, fits, mode⟩, fun heq => ?_, fun e' a' he' _ => ?_⟩
    · cases (heq ▸ decides).point
    · exact (by simpa using he' : e' = _ ∧ a' = a).2
  | planning ready =>
    obtain ⟨hfor, honce⟩ := hready ready swapped
    exact ⟨hfor, nofun, honce⟩
  | planned ready is_known =>
    obtain ⟨hfor, honce⟩ := hready ready swapped
    exact ⟨hfor, nofun, honce⟩
  | scheduling ready =>
    obtain ⟨hfor, honce⟩ := hready ready swapped
    exact ⟨hfor, nofun, honce⟩
  | @scheduled _ _ told plan a'' _ ready decides =>
    have hold {e' : Effect} {a' : Answer}
        (he' : .performed e' a' ∈ Event.performed (.restart plan) a'' :: told)
        (hswaps : e'.Swaps) : .performed e' a' ∈ told := by
      refine (List.mem_cons.mp he').resolve_left fun heq => ?_
      obtain ⟨rfl, -⟩ := Event.performed.inj heq
      exact not_swaps_restart plan hswaps
    obtain ⟨⟨g, o, hconsumed, hfits, hmode⟩, honce⟩ := hready ready (hold swapped swaps)
    refine ⟨⟨g, o, List.mem_cons_of_mem _ hconsumed, hfits, hmode⟩, fun heq => ?_,
      fun e' a' he' hswaps => honce e' a' (hold he' hswaps) hswaps⟩
    cases (heq ▸ decides).point

namespace Guided

/-- A success that a reset took over is planned for as it was installed. -/
lemma plan_of_reset (h : Guided setup s) {i g : Nat} {o : UpdateOutcome} (resets : s.Resets i g o) :
    ∃ layout plan, s.world.shared.classifier.known = some layout ∧
      RebootPlan.ofLayout? layout = some plan ∧ s.Matches g plan := by
  obtain ⟨-, hconsumed, hsuccess⟩ := resets
  have hbears := h.steered.bears i g o hconsumed
  rcases h.informed.known_of_bears hbears hsuccess with ⟨hknown, -⟩ | ⟨hknown, -⟩
  · exact ⟨.dual, .direct, hknown, rfl, h.informed.matches_of_plan hbears hsuccess hknown rfl⟩
  · exact ⟨.single, .recovery, hknown, rfl, h.informed.matches_of_plan hbears hsuccess hknown rfl⟩

/-- It is scheduled, unless the partitions are still to be swapped, or that failed. -/
lemma schedules (h : Guided setup s) {i g : Nat} {o : UpdateOutcome} (resets : s.Resets i g o) :
    (∃ plan, s.Matches g plan ∧ s.Schedules setup i plan) ∨
      o.mode = .streaming ∧ s.Unswapped setup i := by
  obtain ⟨layout, plan, hknown, hfollows, hmatches⟩ := h.plan_of_reset resets
  obtain ⟨⟨version, st, here⟩, hconsumed, hsuccess⟩ := resets
  have hfree := h.questions.free_of_known hknown
  have hplan {plan' : RebootPlan} (hp : Trail.Plans (s.trail i) plan') : plan' = plan := by
    obtain ⟨layout', hknown', hfollows'⟩ := hp
    obtain rfl := Option.some.inj (hknown.symm.trans hknown')
    exact Option.some.inj (hfollows'.symm.trans hfollows)
  have hheads {p : Point} (hp : st = .running p) (heads : Heads setup plan s.world p) :
      ∃ plan, s.Matches g plan ∧ s.Schedules setup i plan :=
    ⟨plan, hmatches, .inr ⟨_, p, hp ▸ here, heads⟩⟩
  have hcourse := h.steered.course i _ st here _ version rfl
  have htold : ∀ e ∈ s.told i, (i, e) ∈ s.history := fun e he => mem_told.mp he
  have htaken : .consumed g (some o) ∈ s.told i := mem_told.mpr hconsumed
  generalize s.told i = told at hcourse htold htaken
  cases hcourse with
  | called => cases htaken
  | declined => cases htaken
  | unfit other decides =>
    obtain ⟨rfl, rfl⟩ : g = _ ∧ some o = _ := by simpa using htaken
    exact absurd ⟨rfl, hsuccess⟩ (other o rfl)
  | swapping fits mode =>
    obtain ⟨rfl, rfl⟩ : g = _ ∧ o = _ := by simpa using htaken
    exact .inr ⟨mode, .inl (by rw [System.point?, here])⟩
  | @answered _ _ a fits mode =>
    obtain ⟨rfl, rfl⟩ : g = _ ∧ o = _ := by simpa using htaken
    cases hworks : (prepared setup).swapCommand.expectSuccess a with
    | ok output =>
      refine .inl (hheads rfl ?_)
      rw [hworks]
      exact heads_swapped hknown hfree hfollows
    | error e =>
      refine .inr ⟨mode, .inr ⟨_, a, (prepared setup).swaps_swapCommand,
        htold _ (by simp), fun hfine => ?_⟩⟩
      obtain ⟨output, houtput⟩ := (fine_iff (c := (prepared setup).swapCommand)).mp hfine
      simp [hworks] at houtput
  | @unswapped _ _ a e _ fits mode fails decides =>
    obtain ⟨rfl, rfl⟩ : g = _ ∧ o = _ := by simpa using htaken
    refine .inr ⟨mode, .inr ⟨_, a, (prepared setup).swaps_swapCommand,
      htold _ (by simp), fun hfine => ?_⟩⟩
    obtain ⟨output, houtput⟩ := (fine_iff (c := (prepared setup).swapCommand)).mp hfine
    simp [fails] at houtput
  | planning ready => exact .inl (hheads rfl (heads_planning hknown hfree hfollows))
  | planned ready is_known =>
    obtain rfl := Option.some.inj (is_known.symm.trans hknown)
    exact .inl (hheads rfl (heads_planned hfollows))
  | scheduling ready =>
    obtain rfl := hplan (h.informed.points i _ _ here)
    exact .inl (hheads rfl .asks)
  | @scheduled _ _ _ plan' a _ ready decides =>
    have hperformed := htold (.performed (.restart plan') a) (List.mem_cons_self ..)
    obtain rfl := hplan ((h.informed.events i _ hperformed).restarts plan' rfl)
    exact .inl ⟨plan', hmatches, .inl ⟨a, hperformed⟩⟩

lemma not_planned_unknown (h : Guided setup s) {i g : Nat} {o : UpdateOutcome}
    (resets : s.Resets i g o) : s.point? i ≠ some (.planning (.done .unknown)) := by
  intro hpoint
  obtain ⟨layout, plan, hknown, hfollows, -⟩ := h.plan_of_reset resets
  obtain ⟨⟨version, st, here⟩, -, -⟩ := resets
  have hcourse := h.steered.course i _ st here _ version rfl
  obtain rfl : st = .running (.planning (.done .unknown)) := by
    rw [System.point?, here] at hpoint
    cases st with
    | running p => exact congrArg _ (Option.some.inj hpoint)
    | returned r => cases hpoint
  generalize hst : Status.running (.planning (.done .unknown)) = st at hcourse
  generalize s.told i = told at hcourse
  cases hcourse with
  | planned ready is_known =>
    obtain rfl : BootLayout.unknown = _ := by simpa using hst
    obtain rfl := Option.some.inj (is_known.symm.trans hknown)
    cases hfollows
  | unfit other decides => cases (hst ▸ decides).point
  | unswapped fits mode fails decides => cases (hst ▸ decides).point
  | scheduled ready decides => cases (hst ▸ decides).point
  | _ => cases hst

/-- Only the reset after a streamed success swaps the partitions, and it restarts right away. -/
lemma direct_of_swap (h : Guided setup s) {i : Nat} {e : Effect} {a : Answer} (swaps : e.Swaps)
    (performed : (i, .performed e a) ∈ s.history) :
    (∃ g o, s.Resets i g o ∧ o.mode = .streaming ∧ s.Applied g) ∧
      (Answer.Fine a → s.Schedules setup i .direct) := by
  obtain ⟨number, version, st, here⟩ := h.steered.own i _ performed swaps
  have hcourse := h.steered.course i _ st here number version rfl
  obtain ⟨⟨g, o, hconsumed, hfits, hmode⟩, hst, honce⟩ :=
    hcourse.swaps (mem_told.mpr performed) swaps
  have hlogged := mem_told.mp hconsumed
  obtain ⟨stream, hopened, hslot⟩ :=
    (h.steered.bears i g o hlogged).streamed hfits.success hmode
  have hresets : s.Resets i g o := by
    refine ⟨⟨version, st, ?_⟩, hlogged, hfits.success⟩
    rw [hfits.named, here]
  refine ⟨⟨g, o, hresets, hmode, stream, hopened, hslot⟩, fun hfine => ?_⟩
  rcases h.schedules hresets with ⟨plan, hmatches, hschedules⟩ | ⟨-, hpoint | hfails⟩
  · rwa [← hmatches.direct.mpr (.inr ⟨stream, hopened⟩)]
  · rw [System.point?, here] at hpoint
    cases st with
    | running p => exact absurd (congrArg Status.running (Option.some.inj hpoint)) hst
    | returned r => cases hpoint
  · obtain ⟨e', a', hswaps', hperformed', hbad⟩ := hfails
    obtain rfl := honce e' a' (mem_told.mpr hperformed') hswaps'
    exact absurd hfine hbad

end Guided

/-- Whatever the bootloader answers and however calls overlap, the restart after a success is the
one for the way in which the update was installed, and there always is one, unless the partitions
are still to be swapped or could not be. They are swapped only after a streamed success, and then
the same reset restarts the device. -/
theorem reboot_matches_install {files : FileSystem} {layout : Option BootLayout} {w : World}
    {d : σ} (built : setup.build files layout = .ok w)
    (run : Run setup around (System.fresh w d) s) :
    (∀ i g o, s.Resets i g o →
      ((∃ plan, s.Matches g plan ∧ s.Schedules setup i plan) ∨
        o.mode = .streaming ∧ s.Unswapped setup i) ∧
      (∀ plan a, (i, .performed (.restart plan) a) ∈ s.history → s.Matches g plan) ∧
      s.point? i ≠ some (.planning (.done .unknown))) ∧
    ∀ i e a, e.Swaps → (i, .performed e a) ∈ s.history →
      (∃ g o, s.Resets i g o ∧ o.mode = .streaming ∧ s.Applied g) ∧
        (Answer.Fine a → s.Schedules setup i .direct) := by
  have hguided : Guided setup s := run.guided (build_controller built) (build_free built)
  refine ⟨fun i g o hresets => ⟨hguided.schedules hresets, fun plan a hperformed => ?_,
    hguided.not_planned_unknown hresets⟩, fun i e a swaps => hguided.direct_of_swap swaps⟩
  obtain ⟨layout, hknown, hfollows⟩ := (hguided.informed.events i _ hperformed).restarts plan rfl
  exact hguided.informed.matches_of_plan (hguided.steered.bears i g o hresets.2.1) hresets.2.2
    hknown hfollows

/-! ### A bootloader that changes its mind -/

namespace Small

/-- Two system partitions are reported once, and one from then on. -/
def fickle : Answers Bool := fun e asked files =>
  match e with
  | .run ⟨"fw_printenv", _, _⟩ => (.ok (.ok (if asked then "no" else "yes")), true, files)
  | _ => (.ok (.ok "a"), asked, files)

def unasked : System Bool :=
  .fresh ⟨{}, ⟨files, { timeout := streamSetup.config.commandTimeout }⟩, #[]⟩ false

def waver? (choices : List Choice) : Option (System Bool) :=
  unasked.replay? streamSetup (fun _ _ => true) fickle choices

/-- An image is streamed and applied, and a reset restarts the device. -/
def streamed : List Choice :=
  .start (.request 0 "image.swu" 2) :: List.replicate 11 (.go 0) ++
    [.start (.data 0 0 [7, 8] true), .go 1, .go 1, .engine 0 (.signal .success),
      .engine 0 .markApplied, .go 1, .go 1, .go 1, .go 1,
      .start (.reset 0 ⟨1, 0, 0, 0⟩)] ++ List.replicate 6 (.go 2)

def restarted : System Bool := (waver? streamed).getD unasked

end Small

/-- The partitions are swapped, so the device restarts directly, although the bootloader would now
report one partition. -/
theorem swapped_device_restarts :
    Small.restarted.device = true ∧
      Small.restarted.Resets 2 1 ⟨.system, .streaming, true⟩ ∧
      Small.restarted.Matches 1 .direct ∧
      Small.restarted.Schedules Small.streamSetup 2 .direct := by
  have hbuilt : Small.streamSetup.build Small.files none = .ok Small.unasked.world := rfl
  have hrun : Run Small.streamSetup (.free Small.fickle) (.fresh Small.unasked.world false)
      Small.restarted :=
    run_of_replay (allows_free Small.fickle)
      (rfl : Small.waver? Small.streamed = some Small.restarted)
  have h := reboot_matches_install hbuilt hrun
  have hresets : Small.restarted.Resets 2 1 ⟨.system, .streaming, true⟩ :=
    ⟨⟨⟨1, 0, 0, 0⟩, _, rfl⟩, List.mem_of_getElem? (i := 3) rfl, rfl⟩
  have hrestart : (2, Event.performed (.restart .direct) (.ok (.ok "a"))) ∈
      Small.restarted.history := List.mem_of_getElem? (i := 0) rfl
  have hswap : (2, Event.performed (.run (prepared Small.streamSetup).swapCommand)
      (.ok (.ok "a"))) ∈ Small.restarted.history := List.mem_of_getElem? (i := 2) rfl
  obtain ⟨-, hplanned, -⟩ := h.1 2 1 _ hresets
  obtain ⟨-, hdirect⟩ := h.2 2 _ _ (prepared Small.streamSetup).swaps_swapCommand hswap
  exact ⟨rfl, hresets, hplanned .direct _ hrestart, hdirect ⟨_, rfl, rfl⟩⟩

end DeviceUpdate.Session
