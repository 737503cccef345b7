import DeviceUpdate.Proofs.Install
import DeviceUpdate.Proofs.Session.Effects
import DeviceUpdate.Proofs.Session.Evidence

/-!
# One question at a time

However calls overlap, at most one of them asks for the boot layout, and only while the layout is
not known. So a layout that is known stays known.
-/

namespace DeviceUpdate.Session

variable {σ : Type} {setup : Setup} {around : Surroundings σ} {s t : System σ}

/-- The call holds no question for the boot layout. -/
def Point.Plain (p : Point) : Prop := p.Carries (fun _ q => q.Plain) True

/-- The call holds the question for the boot layout. -/
def Status.Querying (st : Status) : Prop := st.Carries (fun _ q => q.Held) False

lemma begun_plain : Begun setup fun _ q => q.Plain :=
  ⟨.bootLayout, StreamPreparation.prepare_plain _, fun _ => Install.dispatch_plain _ _,
    Install.withdraw_plain _, StreamPreparation.swapActiveSystem_plain _⟩

lemma not_querying_of_plain {st : Status} (h : st.Carries (fun _ q => q.Plain) True) :
    ¬ st.Querying := by
  intro hq
  cases st with
  | returned r => exact hq
  | running p =>
    cases p with
    | choosing | preparing | installing | withdrawing | swapping | planning | asking =>
      exact Procedure.Plain.not_held h hq
    | _ => exact hq

/-- The call `i` holds the question for the boot layout. -/
def System.Querying (s : System σ) (i : Nat) : Prop :=
  ∃ thread, s.threads[i]? = some thread ∧ thread.status.Querying

/-- Every call under way holds the question, or none. -/
def System.Tidy (s : System σ) : Prop :=
  s.All fun _ _ p => p.Plain ∨ Status.Querying (.running p)

lemma querying_set {i j : Nat} {new : Thread} {w : World} {d : σ} {history : List (Nat × Event)}
    (h : System.Querying ⟨w, s.threads.set i new, d, history⟩ j) :
    (j = i ∧ new.status.Querying) ∨ j ≠ i ∧ s.Querying j := by
  obtain ⟨thread, hj, hq⟩ := h
  rcases getElem?_set_cases hj with ⟨rfl, rfl⟩ | ⟨hne, hold⟩
  · exact .inl ⟨rfl, hq⟩
  · exact .inr ⟨hne, thread, hold, hq⟩

/-- What a step does to the question: nothing, or a call asks, or it is settled. -/
inductive Turn (s t : System σ) : Prop
  | none (same : t.world.shared.classifier = s.world.shared.classifier)
      (back : ∀ i, t.Querying i → s.Querying i)
  | begins (i : Nat) (free : s.world.shared.classifier.busy = false)
      (open_ : s.world.shared.classifier.known = .none)
      (now : t.world.shared.classifier = { s.world.shared.classifier with busy := true })
      (back : ∀ j, t.Querying j → j = i ∨ s.Querying j)
  | ends (i : Nat) (layout : BootLayout) (held : s.Querying i) (plain : ¬ t.Querying i)
      (now : t.world.shared.classifier = s.world.shared.classifier.settle layout)
      (back : ∀ j, t.Querying j → s.Querying j)

lemma resume_querying {p : Point} {a : Answer} (tidy : p.Plain ∨ Status.Querying (.running p))
    (h : Status.Querying (.running (p.resume a))) : Status.Querying (.running p) := by
  rcases tidy with hplain | hq
  · have hresumed : Status.Carries (fun _ q => q.Plain) True (.running (p.resume a)) :=
      resume_carries a (fun _ _ hq => hq.resume a) hplain
    exact absurd h (not_querying_of_plain hresumed)
  · exact hq

lemma Step.turn (step : Step setup around s t) (tidy : s.Tidy) : Turn s t := by
  cases step with
  | @start call may =>
    refine .none rfl fun i ⟨thread, hi, hq⟩ => ?_
    rcases getElem?_concat_cases hi with ⟨-, rfl⟩ | ⟨-, hold⟩
    · exact hq.elim
    · exact ⟨thread, hold, hq⟩
  | @move i call p w st here goes =>
    cases (goes_of_move goes).within begun_plain with
    | begins same carries =>
      refine .none same fun j hj => ?_
      rcases querying_set hj with ⟨-, hq⟩ | ⟨-, hq⟩
      · exact absurd hq (not_querying_of_plain carries)
      · exact hq
    | @inside α wrap rest rest' shared wraps hmove =>
      have hrest : rest.Plain ∨ rest.Held :=
        (tidy i call _ here).imp (wraps.carries _).mp (wraps.carries _).mp
      cases Procedure.asked_of_move hrest hmove with
      | none plain stays same =>
        refine .none same fun j hj => ?_
        rcases querying_set hj with ⟨-, hq⟩ | ⟨-, hq⟩
        · exact absurd ((wraps.carries _).mp hq) stays.not_held
        · exact hq
      | begins plain held free open_ now =>
        exact .begins i free open_ now fun j hj => (querying_set hj).imp And.left And.right
      | @ends layout held plain is_settle now =>
        have hi : ¬ System.Querying (s.moved i call (wrap rest) { s.world with shared }
            (.running (wrap rest'))) i := by
          intro hq
          rcases querying_set hq with ⟨-, hq⟩ | ⟨hne, -⟩
          · exact plain.not_held ((wraps.carries _).mp hq)
          · exact hne rfl
        refine .ends i layout ⟨_, here, (wraps.carries _).mpr held⟩ hi now fun j hj => ?_
        rcases querying_set hj with ⟨rfl, -⟩ | ⟨-, hq⟩
        · exact absurd hj hi
        · exact hq
  | @answer i call p e a device files here asks gets =>
    refine .none rfl fun j hj => ?_
    rcases querying_set hj with ⟨rfl, hq⟩ | ⟨-, hq⟩
    · exact ⟨_, here, resume_querying (tidy j call p here) hq⟩
    · exact hq
  | @wake i call p here waits =>
    refine .none rfl fun j hj => ?_
    rcases querying_set hj with ⟨rfl, hq⟩ | ⟨-, hq⟩
    · exact ⟨_, here, wake_carries.mp hq⟩
    · exact hq
  | engine goes => exact .none rfl fun i hi => hi
  | drift goes => exact .none rfl fun i hi => hi

lemma Step.tidy (step : Step setup around s t) (h : s.Tidy) : t.Tidy := by
  refine h.step step (fun _ _ _ _ _ hp => hp) (fun _ _ => .inl trivial) ?_ ?_ ?_
  · rintro i call p w p' - goes - hp
    cases goes.within begun_plain with
    | begins same carries => exact .inl carries
    | inside wraps hmove =>
      cases Procedure.asked_of_move (hp.imp (wraps.carries _).mp (wraps.carries _).mp) hmove with
      | none plain stays same => exact .inl ((wraps.carries _).mpr stays)
      | begins plain held free open_ now => exact .inr ((wraps.carries _).mpr held)
      | ends held plain is_settle now => exact .inl ((wraps.carries _).mpr plain)
  · intro i call p a hp
    refine hp.imp (resume_carries a fun _ _ hq => hq.resume a) fun hq => ?_
    cases p with
    | choosing | preparing | installing | withdrawing | swapping | planning | asking =>
      exact Procedure.Held.resume hq a
    | _ => exact hq.elim
  · intro i call p hp
    exact hp.imp wake_carries.mpr wake_carries.mpr

/-- At most one call asks, and only while the layout is not known. -/
structure Questions (s : System σ) : Prop where
  tidy : s.Tidy
  busy : ∀ i, s.Querying i → s.world.shared.classifier.busy
  unique : ∀ i j, s.Querying i → s.Querying j → i = j
  open_ : s.world.shared.classifier.busy → s.world.shared.classifier.known = none

theorem Questions.step (h : Questions s) (step : Step setup around s t) : Questions t := by
  refine ⟨step.tidy h.tidy, ?_, ?_, ?_⟩
  · intro i hi
    cases step.turn h.tidy with
    | none same back => exact same ▸ h.busy i (back i hi)
    | begins k free open_ now back => rw [now]
    | ends k layout held plain now back => exact absurd (h.unique i k (back i hi) held ▸ hi) plain
  · intro i j hi hj
    cases step.turn h.tidy with
    | none same back => exact h.unique i j (back i hi) (back j hj)
    | begins k free open_ now back =>
      have hnone (l : Nat) : ¬ s.Querying l := fun hl => by simp [h.busy l hl] at free
      rw [(back i hi).resolve_right (hnone i), (back j hj).resolve_right (hnone j)]
    | ends k layout held plain now back => exact h.unique i j (back i hi) (back j hj)
  · intro hbusy
    cases step.turn h.tidy with
    | none same back =>
      rw [same] at hbusy ⊢
      exact h.open_ hbusy
    | begins k free open_ now back => rw [now, open_]
    | ends k layout held plain now back =>
      rw [now] at hbusy
      cases hbusy

/-- A layout that is known stays known. -/
lemma Questions.known_step (h : Questions s) (step : Step setup around s t) {layout : BootLayout}
    (known : s.world.shared.classifier.known = some layout) :
    t.world.shared.classifier.known = some layout := by
  cases step.turn h.tidy with
  | none same back => rw [same, known]
  | begins k free open_ now back => simp [open_] at known
  | ends k layout' held plain now back =>
    have hnone := h.open_ (h.busy k held)
    simp [hnone] at known

/-- Nobody asks for a layout that is known. -/
lemma Questions.free_of_known (h : Questions s) {layout : BootLayout}
    (known : s.world.shared.classifier.known = some layout) :
    s.world.shared.classifier.busy = false := by
  by_contra hbusy
  have hnone := h.open_ (by simpa using hbusy)
  simp [hnone] at known

lemma questions_fresh (w : World) (d : σ) (free : w.shared.classifier.busy = false) :
    Questions (System.fresh w d) := by
  have hnone (i : Nat) : ¬ (System.fresh w d).Querying i := by
    rintro ⟨thread, hi, -⟩
    cases hi
  exact ⟨System.all_fresh w d, fun i hi => absurd hi (hnone i),
    fun i j hi => absurd hi (hnone i), fun hbusy => by simp [System.fresh, free] at hbusy⟩

/-- Nobody asks a classifier that was just built. -/
lemma build_free {files : FileSystem} {layout : Option BootLayout} {w : World}
    (built : setup.build files layout = .ok w) : w.shared.classifier.busy = false := by
  rw [eq_of_build built]
  cases layout <;> rfl

/-! ### What a call has found out -/

/-- What the call `i` has found out so far. -/
def System.trail (s : System σ) (i : Nat) : Trail :=
  ⟨s.world.shared.classifier.known, fun e a => (i, .performed e a) ∈ s.history⟩

/-- It stays found out. -/
lemma Questions.leads (h : Questions s) (step : Step setup around s t) (i : Nat) :
    (s.trail i).Leads (t.trail i) :=
  ⟨fun _ known => h.known_step step known, fun _ _ did => step.extends.history _ did⟩

end DeviceUpdate.Session
