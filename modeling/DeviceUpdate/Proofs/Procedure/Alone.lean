import DeviceUpdate.Proofs.Procedure

/-!
# Procedures that run alone

A procedure that runs alone comes to a value, whatever the device answers. What it asked the device
for is what a device tells that notes everything down.
-/

namespace DeviceUpdate

/-- How effects are answered, from a state of the device and the files. -/
abbrev Handler (σ : Type) : Type := Effect → σ × FileSystem → Answer × σ × FileSystem

/-- The same device, which also notes down what it was asked and what it answered, in order. -/
def Handler.noting {σ : Type} (device : Handler σ) : Handler (σ × List (Effect × Answer))
  | e, ((s, notes), fs) =>
    let (answer, s, fs) := device e (s, fs)
    (answer, (s, notes ++ [(e, answer)]), fs)

namespace Procedure

variable {σ α β : Type} (device : Handler σ)

/-- What the procedure asks the device for, with the answers, in order. -/
def asked (p : Procedure α) (s : σ × Shared) : List (Effect × Answer) :=
  (p.eval device.noting ((s.1, []), s.2)).2.1.2

/-- Notes change nothing else, and are only added to. -/
lemma eval_noting (p : Procedure α) (s : σ) (notes : List (Effect × Answer)) (shared : Shared) :
    p.eval device.noting ((s, notes), shared) =
      let after := p.eval device (s, shared)
      (after.1, (after.2.1, notes ++ p.asked device (s, shared)), after.2.2) := by
  -- what is noted from nothing is noted from any notes, so each step is taken twice
  induction p generalizing s notes shared with
  | done a => simp [eval, asked]
  | perform e next ih =>
    rw [asked]
    dsimp only [eval, Handler.noting]
    rw [ih, ih]
    simp
  | files change next ih => exact ih _ _ _ _
  | classify next ih =>
    rw [asked]
    cases known : shared.classifier.known with
    | some layout =>
      simp only [eval_classify_known _ known]
      exact ih ..
    | none =>
      simp only [eval_classify_open _ known, Handler.noting]
      rw [ih, ih]
      simp
  | settle layout next ih => exact ih _ _ _

@[simp] lemma asked_done (a : α) (s : σ × Shared) : (done a).asked device s = [] := rfl

lemma asked_perform (e : Effect) (next : Answer → Procedure α) (s : σ) (shared : Shared) :
    (perform e next).asked device (s, shared) =
      let answered := device e (s, shared.files)
      (e, answered.1) ::
        (next answered.1).asked device (answered.2.1, { shared with files := answered.2.2 }) := by
  rw [asked]
  dsimp only [eval, Handler.noting]
  rw [eval_noting]
  rfl

lemma asked_classify_known {next : BootLayout → Procedure α} {s : σ} {shared : Shared}
    {layout : BootLayout} (known : shared.classifier.known = some layout) :
    (classify next).asked device (s, shared) = (next layout).asked device (s, shared) := by
  rw [asked, eval_classify_known _ known]
  rfl

lemma asked_classify_open {next : BootLayout → Procedure α} {s : σ} {shared : Shared}
    (unknown : shared.classifier.known = none) :
    (classify next).asked device (s, shared) =
      let query : Effect := .run (BootLayout.query shared.classifier.timeout)
      let answered := device query (s, shared.files)
      let layout := BootLayout.ofAnswer answered.1
      (query, answered.1) :: (next layout).asked device
        (answered.2.1, ⟨answered.2.2, shared.classifier.settle layout⟩) := by
  rw [asked, eval_classify_open _ unknown]
  dsimp only [Handler.noting]
  rw [eval_noting]
  rfl

lemma asked_bind (p : Procedure α) (f : α → Procedure β) (s : σ × Shared) :
    (p.bind f).asked device s =
      p.asked device s ++ (f (p.eval device s).1).asked device (p.eval device s).2 := by
  rw [asked, eval_bind, eval_noting, eval_noting]
  rfl

/-- All that is asked for is of the kind that the procedure asks for, the question for the boot
layout included. -/
lemma Only.asked {P : Effect → Prop} {p : Procedure α} (h : Only P p)
    (query : ∀ timeout, P (.run (BootLayout.query timeout))) (s : σ × Shared) :
    ∀ d ∈ p.asked device s, P d.1 := by
  obtain ⟨s, shared⟩ := s
  induction h generalizing s shared with
  | done a => simp
  | perform kind _ ih =>
    rw [asked_perform]
    exact List.forall_mem_cons.mpr ⟨kind, ih _ _ _⟩
  | @files change _ _ _ ih => exact ih _ s { shared with files := change shared.files }
  | classify _ ih =>
    cases known : shared.classifier.known with
    | some layout =>
      rw [asked_classify_known _ known]
      exact ih _ _ _
    | none =>
      rw [asked_classify_open _ known]
      exact List.forall_mem_cons.mpr ⟨query _, ih _ _ _⟩
  | @settle layout _ _ ih =>
    exact ih s { shared with classifier := shared.classifier.settle layout }

end Procedure

end DeviceUpdate
