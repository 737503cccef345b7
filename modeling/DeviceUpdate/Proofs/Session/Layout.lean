import DeviceUpdate.Proofs.Session.Questions

/-!
# The layout that calls rely on

The boot layout is asked for when a delivery is chosen, when a package is installed, and when a
reset plans a restart. Since a layout that is known stays known, all three see the same one: an
image is streamed or given to the installer tool only with two system partitions, and given to the
recovery writer only with one.
-/

namespace DeviceUpdate.Session

variable {σ : Type} {setup : Setup} {around : Surroundings σ} {s t : System σ}

/-- The plan is that of the layout that is known. -/
def Trail.Plans (x : Trail) (plan : RebootPlan) : Prop :=
  ∃ layout, x.known = some layout ∧ RebootPlan.ofLayout? layout = some plan

lemma Trail.Plans.mono {x y : Trail} {plan : RebootPlan} (hx : x.Leads y) (h : Trail.Plans x plan) :
    Trail.Plans y plan := by
  obtain ⟨layout, hknown, hplan⟩ := h
  exact ⟨layout, hx.known _ hknown, hplan⟩

/-- A question for the boot layout. -/
abbrev Asks.Layout (rest : Procedure BootLayout) (x : Trail) : Prop :=
  rest.Meets Effect.Suits (fun layout y => y.Found layout) x

lemma asksLayout_bootLayout (x : Trail) : Asks.Layout Procedure.bootLayout x :=
  .classify fun _ _ _ found => .done found

/-- What a call at this point takes the boot layout for agrees with what it has found out. -/
def Point.Agrees (x : Trail) : Point → Prop
  | .choosing _ _ _ _ rest | .planning rest | .asking rest => Asks.Layout rest x
  | .preparing _ _ rest => x.known = some .dual ∧ rest.Meets Effect.Suits (fun _ _ => True) x
  | .starting _ _ _ _ | .settling _ _ (.streaming _) => x.known = some .dual
  | .installing _ _ package rest => rest.Meets Effect.Suits (Install.Explains package) x
  | .installed _ _ package result => Install.Explains package result x
  | .withdrawing _ rest => rest.Meets Effect.Suits (fun _ _ => True) x
  | .swapping rest => rest.Only Effect.Spares
  | .scheduling plan => Trail.Plans x plan
  | _ => True

def Status.Agrees (x : Trail) : Status → Prop
  | .running p => p.Agrees x
  | .returned _ => True

lemma Point.Agrees.mono {p : Point} {x y : Trail} (hx : x.Leads y) (h : p.Agrees x) :
    p.Agrees y := by
  cases p with
  | choosing | planning | asking =>
    exact Procedure.Meets.mono h hx Effect.Suits.mono fun hx hf => Trail.Found.mono hf hx
  | preparing g target rest =>
    exact ⟨hx.known _ h.1, h.2.mono hx Effect.Suits.mono fun _ _ => trivial⟩
  | starting g target stream request => exact hx.known _ h
  | settling g target delivery =>
    cases delivery with
    | staged path file => trivial
    | streaming stream => exact hx.known _ h
  | installing g target package rest =>
    exact Procedure.Meets.mono h hx Effect.Suits.mono Install.Explains.mono
  | installed g target package result => exact Install.Explains.mono hx h
  | withdrawing package rest =>
    exact Procedure.Meets.mono h hx Effect.Suits.mono fun _ _ => trivial
  | swapping rest => exact h
  | scheduling plan => exact Trail.Plans.mono hx h
  | _ => trivial

/-- A call that goes on by itself still agrees. -/
lemma Goes.agrees {w w' : World} {p : Point} {st : Status} {x y : Trail} (h : Goes setup w p w' st)
    (hp : p.Agrees x) (hx : x.Leads y) (known : w.shared.classifier.known = x.known)
    (now : w'.shared.classifier.known = y.known) : st.Agrees y := by
  have hquery (x : Trail) (timeout : Duration) :
      Effect.Suits x (.run (BootLayout.query timeout)) :=
    (Effect.harmless_query timeout).suits x
  have hfree {α : Type} {q : Procedure α} (h : q.Only Effect.Harmless) :
      q.Meets Effect.Suits (fun _ _ => True) y :=
    .of_only h (fun x _ he => he.suits x) fun _ _ => trivial
  cases h with
  | request h =>
    cases h with
    | refused code => trivial
    | accepted known name free goes =>
      obtain ⟨-, rfl⟩ | rfl := goes
      · exact asksLayout_bootLayout y
      · trivial
  | data h =>
    cases h with
    | finished takes delivery write final synced =>
      generalize ActiveUpdate.target _ = target
      cases target <;> trivial
    | _ => trivial
  | cancel h => cases h <;> trivial
  | reset h =>
    cases h with
    | refused decision unscheduled => trivial
    | begun done path =>
      generalize w.controller.outcome = outcome at path
      cases path with
      | refused => trivial
      | swap same success mode => exact StreamPreparation.swapActiveSystem_spares _
      | plan same success mode => exact asksLayout_bootLayout y
  | bootLayout => exact asksLayout_bootLayout y
  | inside wraps hmove =>
    cases wraps with
    | choosing | planning | asking =>
      exact Procedure.Meets.step hp known now hx hquery Effect.Suits.mono
        (fun hx hf => Trail.Found.mono hf hx) hmove
    | preparing =>
      exact ⟨hx.known _ hp.1,
        hp.2.step known now hx hquery Effect.Suits.mono (fun _ _ => trivial) hmove⟩
    | installing => exact hp.step known now hx hquery Effect.Suits.mono Install.Explains.mono hmove
    | withdrawing =>
      exact hp.step known now hx hquery Effect.Suits.mono (fun _ _ => trivial) hmove
    | swapping => exact Procedure.Only.step hp (fun t => (Effect.harmless_query t).1) hmove
  | chosenDual =>
    exact ⟨hx.known _ (hp.result (by simp)), hfree (StreamPreparation.prepare_harmless _)⟩
  | prepared => exact hx.known _ hp.1
  | created create => trivial
  | handed owner => exact Install.dispatch_meets _ _ y
  | installDone => exact hp.result.mono hx
  | takenBack lost => exact hfree (Install.withdraw_harmless _)
  | swapped => exact asksLayout_bootLayout y
  | @planned layout plan possible =>
    refine ⟨layout, hx.known _ (hp.result ?_), possible⟩
    rintro rfl
    cases possible
  | _ => trivial

/-- So does a call that gets an answer. -/
lemma Point.Agrees.resume {p : Point} {w : World} {e : Effect} {a : Answer} {x y : Trail}
    (h : p.Agrees x) (asks : p.move setup w = .effect e) (hx : x.Leads y) (did : y.did e a) :
    (p.resume a).Agrees y := by
  cases p with
  | choosing | planning => exact Procedure.Meets.resume h (effect_of_advance asks) hx did
  | asking rest =>
    simp only [Point.move] at asks
    split at asks
    · cases asks
    · exact Procedure.Meets.resume h (effect_of_advance asks) hx did
  | preparing g target rest =>
    simp only [Point.move] at asks
    split at asks
    · cases asks
    · exact ⟨hx.known _ h.1, h.2.resume (effect_of_advance asks) hx did⟩
  | starting g target stream request =>
    cases a with
    | ok output => exact hx.known _ h
    | error e => trivial
  | installing | withdrawing => exact Procedure.Meets.resume h (effect_of_advance asks) hx did
  | scheduling plan => trivial
  | swapping rest => exact Procedure.Only.resume h a
  | _ => exact Point.Agrees.mono hx h

lemma wake_agrees {p : Point} {x : Trail} (h : p.Agrees x) : p.wake.Agrees x := by
  cases p <;> exact h

/-- An effect that is performed agrees with what is known of the layout. -/
structure Performs (x : Trail) (e : Effect) : Prop where
  installs : ∀ package, e.Installs package → x.known = some .dual
  handsOver : ∀ package, e.HandsOver package → x.known = some .single
  restarts : ∀ plan, e = .restart plan → Trail.Plans x plan

lemma Performs.mono {x y : Trail} {e : Effect} (h : Performs x e) (hx : x.Leads y) :
    Performs y e :=
  ⟨fun package hp => hx.known _ (h.installs package hp),
    fun package hp => hx.known _ (h.handsOver package hp),
    fun plan hp => (h.restarts plan hp).mono hx⟩

/-- A call asks for effects that agree with what it has found out, and only a reset swaps the
partitions. -/
lemma Asks.performs {w : World} {p : Point} {e : Effect} {x : Trail} (asks : Asks w p e)
    (stays : p.Only Effect.Stays) (h : p.Agrees x) :
    Performs x e ∧ (e.Swaps → ∃ rest, p = .swapping rest) := by
  have hspares (he : e.Spares) (never : ∀ plan, e ≠ .restart plan) : Performs x e :=
    ⟨fun package hp => absurd hp (he package).1, fun package hp => absurd hp (he package).2,
      fun plan hp => absurd hp (never plan)⟩
  have hsuits (he : e.Suits x) (never : ∀ plan, e ≠ .restart plan) :
      Performs x e ∧ (e.Swaps → ∃ rest, p = .swapping rest) :=
    ⟨⟨he.installs, he.handsOver, fun plan hp => absurd hp (never plan)⟩,
      fun hswaps => absurd hswaps he.keeps⟩
  cases asks with
  | inside wraps hasks =>
    have hnever : ∀ plan, e ≠ .restart plan := by
      have hkind := ((wraps.carries _).mp (Point.only_iff.mp stays)).effect hasks
      exact hkind.1
    cases wraps with
    | choosing | planning | asking | installing | withdrawing =>
      exact hsuits (Procedure.Meets.effect h hasks) hnever
    | preparing => exact hsuits (h.2.effect hasks) hnever
    | swapping => exact ⟨hspares (Procedure.Only.effect h hasks) hnever, fun _ => ⟨_, rfl⟩⟩
  | starting =>
    exact ⟨hspares (by simp [Effect.Spares, Effect.Installs, Effect.HandsOver]) (by simp),
      by simp [Effect.Swaps]⟩
  | stopping | pushing =>
    exact ⟨hspares (by simp [Effect.Spares, Effect.Installs, Effect.HandsOver]) (by simp),
      by simp [Effect.Swaps]⟩
  | @scheduling plan =>
    refine ⟨⟨by simp [Effect.Installs], by simp [Effect.HandsOver], ?_⟩, by simp [Effect.Swaps]⟩
    rintro plan' ⟨⟩
    exact h

/-- What is told agrees with what is known of the layout. -/
def Event.Agrees (x : Trail) : Event → Prop
  | .performed e _ => Performs x e
  | .installed _ package result => Install.Explains package result x
  | .opened _ (.streaming _) => x.known = some .dual
  | _ => True

lemma Event.Agrees.mono {x y : Trail} {e : Event} (hx : x.Leads y) (h : e.Agrees x) :
    e.Agrees y := by
  cases e with
  | performed f a => exact Performs.mono h hx
  | installed g package result => exact Install.Explains.mono hx h
  | opened g delivery =>
    cases delivery with
    | staged path file => trivial
    | streaming stream => exact hx.known _ h
  | _ => trivial

lemma Tells.agrees {w w' : World} {p : Point} {st : Status} {e : Event} {x : Trail}
    (h : Tells setup w p w' st e) (hp : p.Agrees x) : e.Agrees x := by
  cases h with
  | @opened g target delivery owner =>
    cases delivery with
    | staged path file => trivial
    | streaming stream => exact hp
  | installed => exact Procedure.Meets.result hp
  | _ => trivial

/-- Where calls stand, and what they did, agrees with what is known of the layout. -/
structure Informed (s : System σ) : Prop where
  points : s.All fun i _ p => p.Agrees (s.trail i)
  events : ∀ i e, (i, e) ∈ s.history → e.Agrees (s.trail i)

theorem Informed.step (h : Informed s) (questions : Questions s) (stays : s.Stays)
    (step : Step setup around s t) : Informed t := by
  have hleads := questions.leads step
  constructor
  · refine System.all_iff_each.mpr ((System.all_iff_each.mp h.points).step step ?_ ?_ ?_ ?_ ?_)
    · rintro i call st - - - hp p rfl
      exact (hp p rfl).mono (hleads i)
    · rintro call - p hp
      obtain rfl := Status.running.inj hp
      trivial
    · rintro i call p w st - goes rfl hp q rfl
      exact goes.agrees (hp p rfl) (hleads i) rfl rfl
    · rintro i call p e a device files - asks - rfl hp q hq
      obtain rfl := Status.running.inj hq
      exact (hp p rfl).resume asks (hleads i) (List.mem_cons_self ..)
    · rintro i call p - - hp q hq
      obtain rfl := Status.running.inj hq
      exact wake_agrees ((hp p rfl).mono (hleads i))
  · intro i e he
    rcases step.logs he with hold | hnew
    · exact (h.events i e hold).mono (hleads i)
    · cases hnew with
      | told here goes tells now => exact (tells.agrees (h.points i _ _ here)).mono (hleads i)
      | performed here asks now =>
        have hperforms := (asks_of_move asks).performs (stays i _ _ here) (h.points i _ _ here)
        exact hperforms.1.mono (hleads i)

lemma informed_fresh (w : World) (d : σ) : Informed (System.fresh w d) :=
  ⟨System.all_fresh w d, fun i e he => by simp [System.fresh] at he⟩

/-! ### How an update was installed -/

/-- One call handed the package of the update over, and did this with it. -/
def System.Treated (s : System σ) (g : Nat) (how : Effect → String → Prop) : Prop :=
  ∃ i package content e a, how e package ∧ (i, .handed g package content) ∈ s.history ∧
    (i, .performed e a) ∈ s.history

/-- The image was streamed to the engine. -/
def System.Streamed (s : System σ) (g : Nat) : Prop := ∃ stream, s.Opened g (.streaming stream)

/-- The plan goes with the way in which the update was installed. -/
structure System.Matches (s : System σ) (g : Nat) (plan : RebootPlan) : Prop where
  recovery : plan = .recovery ↔ s.Treated g Effect.HandsOver
  direct : plan = .direct ↔ s.Treated g Effect.Installs ∨ s.Streamed g

namespace Informed

lemma dual_of_streamed (h : Informed s) {g : Nat} (streamed : s.Streamed g) :
    s.world.shared.classifier.known = some .dual := by
  obtain ⟨stream, d, ⟨i, hi⟩, hd⟩ := streamed
  cases d with
  | staged path file => cases hd
  | streaming n => exact h.events i _ hi

/-- Once an update went well the layout is known, and is the one that it was installed by. -/
lemma known_of_bears (h : Informed s) {g : Nat} {o : UpdateOutcome} (bears : s.Bears g o)
    (success : o.success) :
    s.world.shared.classifier.known = some .dual ∧ (s.Treated g Effect.Installs ∨ s.Streamed g) ∨
      s.world.shared.classifier.known = some .single ∧ s.Treated g Effect.HandsOver ∧
        o.mode = .staged := by
  cases hmode : o.mode with
  | staged =>
    obtain ⟨-, i, package, content, layout, hhanded, hinstalled⟩ := bears.staged success hmode
    have hexplains : Install.Explains package (.ok layout) (s.trail i) := h.events i _ hinstalled
    cases layout with
    | dual =>
      obtain ⟨hknown, e, a, he, hdid⟩ := hexplains
      exact .inl ⟨hknown, .inl ⟨i, package, content, e, a, he, hhanded, hdid⟩⟩
    | single =>
      obtain ⟨hknown, e, a, he, hdid⟩ := hexplains
      exact .inr ⟨hknown, ⟨i, package, content, e, a, he, hhanded, hdid⟩, rfl⟩
    | unknown => exact hexplains.elim
  | streaming =>
    obtain ⟨stream, hopened, -⟩ := bears.streamed success hmode
    exact .inl ⟨h.dual_of_streamed ⟨stream, hopened⟩, .inr ⟨stream, hopened⟩⟩

/-- A plan by the layout that is known matches the install. -/
lemma matches_of_plan (h : Informed s) {g : Nat} {o : UpdateOutcome} (bears : s.Bears g o)
    (success : o.success) {layout : BootLayout} {plan : RebootPlan}
    (known : s.world.shared.classifier.known = some layout)
    (follows : RebootPlan.ofLayout? layout = some plan) : s.Matches g plan := by
  have hover (ht : s.Treated g Effect.HandsOver) :
      s.world.shared.classifier.known = some .single := by
    obtain ⟨i, package, content, e, a, he, -, hdid⟩ := ht
    exact (h.events i _ hdid).handsOver package he
  have hdual (ht : s.Treated g Effect.Installs ∨ s.Streamed g) :
      s.world.shared.classifier.known = some .dual := by
    rcases ht with ⟨i, package, content, e, a, he, -, hdid⟩ | hstreamed
    · exact (h.events i _ hdid).installs package he
    · exact h.dual_of_streamed hstreamed
  rcases h.known_of_bears bears success with ⟨hknown, hhow⟩ | ⟨hknown, hhow, -⟩
  · obtain rfl := Option.some.inj (known.symm.trans hknown)
    obtain rfl := Option.some.inj follows
    exact ⟨⟨by simp, fun ht => by simp [hover ht] at hknown⟩, ⟨fun _ => hhow, fun _ => rfl⟩⟩
  · obtain rfl := Option.some.inj (known.symm.trans hknown)
    obtain rfl := Option.some.inj follows
    exact ⟨⟨fun _ => hhow, fun _ => rfl⟩, ⟨by simp, fun ht => by simp [hdual ht] at hknown⟩⟩

end Informed

end DeviceUpdate.Session
