import DeviceUpdate.Proofs.Procedure

/-!
# Questions for the boot layout

The first question for the boot layout becomes a query, and whoever asks meanwhile waits until it is
settled. `Plain` and `Held` tell the procedures that hold no question from those that do. A
definite answer stays, so a procedure can rely on it; what a procedure comes to in the light of
what it was answered before is told by `Meets`.
-/

namespace DeviceUpdate

namespace Procedure

variable {α β : Type}

/-- The procedure holds no question, and settles only what it asked itself. -/
inductive Plain : Procedure α → Prop
  | done (a : α) : Plain (.done a)
  | perform {e : Effect} {next : Answer → Procedure α} (rest : ∀ answer, Plain (next answer)) :
      Plain (.perform e next)
  | files {change : FileSystem → FileSystem} {next : FileSystem → Procedure α}
      (rest : ∀ fs, Plain (next fs)) : Plain (.files change next)
  | classify {next : BootLayout → Procedure α} (rest : ∀ layout, Plain (next layout)) :
      Plain (.classify next)

/-- The procedure has asked for the boot layout, and keeps other questions waiting. -/
inductive Held : Procedure α → Prop
  | asked {timeout : Duration} {next : BootLayout → Procedure α}
      (rest : ∀ layout, Plain (next layout)) :
      Held (.perform (.run (BootLayout.query timeout)) fun answer =>
        .settle (BootLayout.ofAnswer answer) (next (BootLayout.ofAnswer answer)))
  | answered {layout : BootLayout} {next : Procedure α} (rest : Plain next) :
      Held (.settle layout next)

lemma Plain.not_held {p : Procedure α} (h : Plain p) : ¬ Held p := by
  intro held
  cases held with
  | asked hrest =>
    cases h with
    | perform rest => cases rest (.error (.invalidState ""))
  | answered hrest => cases h

namespace Plain

lemma bind {p : Procedure α} {f : α → Procedure β} (hp : Plain p) (hf : ∀ a, Plain (f a)) :
    Plain (p.bind f) := by
  induction hp with
  | done a => exact hf a
  | perform rest ih => exact .perform ih
  | files rest ih => exact .files ih
  | classify rest ih => exact .classify ih

lemma ask (e : Effect) : Plain (Procedure.ask e) := .perform fun a => .done a

lemma bootLayout : Plain Procedure.bootLayout := .classify fun layout => .done layout

lemma runExpecting (c : Command) : Plain (Procedure.runExpecting c) :=
  bind (ask _) fun answer => .done (c.expectSuccess answer)

lemma andThen {p : Procedure (Except UpdateError α)} {f : α → Procedure (Except UpdateError β)}
    (hp : Plain p) (hf : ∀ a, Plain (f a)) : Plain (p.andThen f) := by
  refine bind hp fun result => ?_
  cases result with
  | ok a => exact hf a
  | error e => exact .done _

end Plain

/-- What a step makes of a question: there was none, or the procedure asks, or it is answered. -/
inductive Asked (before after : Classifier) (p rest : Procedure α) : Prop
  | none (plain : Plain p) (stays : Plain rest) (same : after = before)
  | begins (plain : Plain p) (held : Held rest) (free : before.busy = false)
      (open_ : before.known = .none) (now : after = { before with busy := true })
  | ends {layout : BootLayout} (held : Held p) (plain : Plain rest)
      (is_settle : p = .settle layout rest) (now : after = before.settle layout)

lemma asked_of_move {p rest : Procedure α} {shared after : Shared} (h : Plain p ∨ Held p)
    (goes : p.move shared = .step after rest) :
    Asked shared.classifier after.classifier p rest := by
  obtain hp | hp := h
  · cases hp with
    | done a => simp [Procedure.move] at goes
    | perform hrest => simp [Procedure.move] at goes
    | files hrest =>
      obtain ⟨rfl, rfl⟩ := by simpa [Procedure.move] using goes
      exact .none (.files hrest) (hrest _) rfl
    | classify hrest =>
      simp only [Procedure.move] at goes
      split at goes
      · simp at goes
      · rename_i hfree
        split at goes
        · obtain ⟨rfl, rfl⟩ := by simpa using goes
          exact .none (.classify hrest) (hrest _) rfl
        · rename_i hknown
          obtain ⟨rfl, rfl⟩ := by simpa using goes
          exact .begins (.classify hrest) (.asked hrest) (by simpa using hfree) hknown rfl
  · cases hp with
    | asked hrest => simp [Procedure.move] at goes
    | answered hrest =>
      obtain ⟨rfl, rfl⟩ := by simpa [Procedure.move] using goes
      exact .ends (.answered hrest) hrest rfl rfl

lemma Plain.resume {p : Procedure α} (h : Plain p) (a : Answer) : Plain (p.resume a) := by
  cases h with
  | perform rest => exact rest a
  | done a => exact .done a
  | files rest => exact .files rest
  | classify rest => exact .classify rest

lemma Held.resume {p : Procedure α} (h : Held p) (a : Answer) : Held (p.resume a) := by
  cases h with
  | asked rest => exact .answered (rest _)
  | answered rest => exact .answered rest

end Procedure

/-! ### What a procedure comes to -/

/-- What a call has found out: the boot layout, and the answers to its effects. -/
structure Trail where
  known : Option BootLayout
  did : Effect → Answer → Prop

/-- The second trail goes on from the first. -/
structure Trail.Leads (x y : Trail) : Prop where
  known : ∀ layout, x.known = some layout → y.known = some layout
  did : ∀ e a, x.did e a → y.did e a

namespace Trail.Leads

variable {x y z : Trail}

lemma trans (h : x.Leads y) (k : y.Leads z) : x.Leads z :=
  ⟨fun layout hl => k.known layout (h.known layout hl), fun e a hd => k.did e a (h.did e a hd)⟩

end Trail.Leads

/-- The trail knows this layout, unless that is the unknown one. -/
def Trail.Found (x : Trail) (layout : BootLayout) : Prop :=
  layout ≠ .unknown → x.known = some layout

lemma Trail.Found.mono {x y : Trail} {layout : BootLayout} (h : x.Found layout) (hx : x.Leads y) :
    y.Found layout :=
  fun hl => hx.known layout (h hl)

namespace Procedure

variable {α β : Type}

/-- On any trail from here on the procedure asks only for what `may` allows there, and ends with
`Q`. -/
inductive Meets {α : Type} (may : Trail → Effect → Prop) (Q : α → Trail → Prop) :
    Procedure α → Trail → Prop
  | done {a : α} {x : Trail} (h : Q a x) : Meets may Q (.done a) x
  | perform {e : Effect} {next : Answer → Procedure α} {x : Trail} (fits : may x e)
      (h : ∀ answer y, x.Leads y → y.did e answer → Meets may Q (next answer) y) :
      Meets may Q (.perform e next) x
  | files {change : FileSystem → FileSystem} {next : FileSystem → Procedure α} {x : Trail}
      (h : ∀ fs, Meets may Q (next fs) x) : Meets may Q (.files change next) x
  | classify {next : BootLayout → Procedure α} {x : Trail}
      (h : ∀ layout y, x.Leads y → y.Found layout → Meets may Q (next layout) y) :
      Meets may Q (.classify next) x
  | settle {layout : BootLayout} {next : Procedure α} {x : Trail}
      (h : ∀ y, x.Leads y → y.Found layout → Meets may Q next y) :
      Meets may Q (.settle layout next) x

namespace Meets

variable {may : Trail → Effect → Prop} {Q : α → Trail → Prop} {R : β → Trail → Prop}
  {x y : Trail} {p : Procedure α}

lemma bind {f : α → Procedure β} (h : Meets may (fun a y => Meets may R (f a) y) p x) :
    Meets may R (p.bind f) x := by
  induction h with
  | done h => exact h
  | perform fits _ ih => exact .perform fits ih
  | files _ ih => exact .files ih
  | classify _ ih => exact .classify ih
  | settle _ ih => exact .settle ih

lemma imp {Q' : α → Trail → Prop} (h : Meets may Q p x) (imp : ∀ a y, Q a y → Q' a y) :
    Meets may Q' p x := by
  induction h with
  | done h => exact .done (imp _ _ h)
  | perform fits _ ih => exact .perform fits ih
  | files _ ih => exact .files ih
  | classify _ ih => exact .classify ih
  | settle _ ih => exact .settle ih

/-- What holds on a trail holds on each that goes on from it. -/
lemma mono (h : Meets may Q p x) (hx : x.Leads y)
    (allows : ∀ {x y e}, x.Leads y → may x e → may y e)
    (keeps : ∀ {x y a}, x.Leads y → Q a x → Q a y) : Meets may Q p y := by
  induction h generalizing y with
  | done h => exact .done (keeps hx h)
  | perform fits h _ => exact .perform (allows hx fits) fun a z hz => h a z (hx.trans hz)
  | files _ ih => exact .files fun fs => ih fs hx
  | classify h _ => exact .classify fun layout z hz => h layout z (hx.trans hz)
  | settle h _ => exact .settle fun z hz => h z (hx.trans hz)

/-- A procedure whose effects are always allowed. -/
lemma of_only {P : Effect → Prop} (h : Only P p) (allows : ∀ x e, P e → may x e)
    (ends : ∀ a x, Q a x) : Meets may Q p x := by
  induction h generalizing x with
  | done a => exact .done (ends a x)
  | perform kind _ ih => exact .perform (allows x _ kind) fun a y _ _ => ih a
  | files looks _ ih => exact .files fun fs => ih fs
  | classify _ ih => exact .classify fun layout y _ _ => ih layout
  | settle _ ih => exact .settle fun y _ _ => ih

lemma result {a : α} (h : Meets may Q (.done a) x) : Q a x := by
  cases h with
  | done h => exact h

/-- A step comes to the same, if what is known stays known and an answer that ends a question is
known afterwards. -/
lemma step {rest : Procedure α} {shared after : Shared} (h : Meets may Q p x)
    (known : shared.classifier.known = x.known) (now : after.classifier.known = y.known)
    (hx : x.Leads y) (query : ∀ x timeout, may x (.run (BootLayout.query timeout)))
    (allows : ∀ {x y e}, x.Leads y → may x e → may y e)
    (keeps : ∀ {x y a}, x.Leads y → Q a x → Q a y)
    (goes : p.move shared = .step after rest) : Meets may Q rest y := by
  cases h with
  | done h => simp [Procedure.move] at goes
  | perform fits h => simp [Procedure.move] at goes
  | files h =>
    obtain ⟨-, rfl⟩ := by simpa [Procedure.move] using goes
    exact (h _).mono hx allows keeps
  | classify h =>
    simp only [Procedure.move] at goes
    split at goes
    · simp at goes
    · split at goes
      · rename_i layout hlayout
        obtain ⟨-, rfl⟩ := by simpa using goes
        exact h layout y hx fun _ => hx.known layout (known ▸ hlayout)
      · obtain ⟨-, rfl⟩ := by simpa using goes
        exact .perform (query _ _) fun answer z hz _ =>
          .settle fun z' hz' hfound => h _ z' ((hx.trans hz).trans hz') hfound
  | @settle layout _ _ h =>
    obtain ⟨rfl, rfl⟩ := by simpa [Procedure.move] using goes
    refine h y hx fun hlayout => ?_
    rw [← now]
    simp [Classifier.settle, hlayout]

lemma effect {shared : Shared} {e : Effect} (h : Meets may Q p x)
    (asks : p.move shared = .effect e) : may x e := by
  obtain ⟨next, rfl⟩ := perform_of_effect asks
  cases h with
  | perform fits h => exact fits

lemma resume {shared : Shared} {e : Effect} {answer : Answer} (h : Meets may Q p x)
    (asks : p.move shared = .effect e) (hx : x.Leads y) (did : y.did e answer) :
    Meets may Q (p.resume answer) y := by
  obtain ⟨next, rfl⟩ := perform_of_effect asks
  cases h with
  | perform fits h => exact h answer y hx did

end Meets

end Procedure

end DeviceUpdate
