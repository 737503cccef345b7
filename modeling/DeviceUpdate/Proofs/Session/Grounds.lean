import DeviceUpdate.Proofs.Session.Evidence

/-!
# What every run bears out

However calls overlap, each generation is accepted by one call, for one target, and the call that
sets an update up is that one. What a call relies on is borne out as well, a reset apart: a chunk
that fails during a reset can let the next update in before the reset is over.
-/

namespace DeviceUpdate.Session

variable {σ : Type} {setup : Setup} {around : Surroundings σ} {s t : System σ}

/-- The call `i` has returned, and nothing else has changed. -/
def System.replied (s : System σ) (i : Nat) (call : Call) (r : Reply) : System σ :=
  { s with threads := s.threads.set i ⟨call, .returned r⟩ }

/-! ### Which call was accepted when -/

/-- A request that a step accepts is the call that goes on, and gets the next generation. -/
lemma Step.accepted_back (step : Step setup around s t) {i g : Nat} {target : Target}
    {file : String} (logged : (i, .accepted g target file) ∈ t.history) :
    (i, .accepted g target file) ∈ s.history ∨
      g = s.world.controller.generation + 1 ∧ t.world.controller.generation = g ∧
        t.history = (i, .accepted g target file) :: s.history := by
  obtain hquiet | ⟨k, call, p, w, st, here, goes, rfl⟩ := step.quiet_or_goes
  · rcases hquiet.mem logged with hold | ⟨f, a, hperformed⟩
    · exact .inl hold
    · cases hperformed
  · rcases mem_moved.mp logged with ⟨rfl, hnew⟩ | hold
    · refine .inr ?_
      have htells := goes.tells hnew
      cases htells with
      | accepted known free goes => exact ⟨rfl, rfl, by simp [System.moved, hnew]⟩
    · exact .inl hold

/-- A step keeps the generation, or accepts a request. -/
lemma Step.generation_le (step : Step setup around s t) :
    s.world.controller.generation ≤ t.world.controller.generation := by
  obtain hquiet | ⟨i, call, p, w, st, here, goes, rfl⟩ := step.quiet_or_goes
  · exact Nat.le_of_eq (congrArg _ hquiet.controller.symm)
  · have := goes.control.generation_cases
    show _ ≤ w.controller.generation
    omega

/-- Each generation that was accepted so far was accepted once. -/
structure Numbered (s : System σ) : Prop where
  known : ∀ i g target file, (i, .accepted g target file) ∈ s.history →
    g ≤ s.world.controller.generation
  unique : ∀ g i j a b file file', (i, .accepted g a file) ∈ s.history →
    (j, .accepted g b file') ∈ s.history → i = j ∧ a = b ∧ file = file'

theorem Numbered.step (h : Numbered s) (step : Step setup around s t) : Numbered t := by
  have hle := step.generation_le
  constructor
  · intro i g target file logged
    rcases step.accepted_back logged with hold | ⟨-, hnew, -⟩
    · exact Nat.le_trans (h.known i g target file hold) hle
    · exact Nat.le_of_eq hnew.symm
  · intro g i j a b file file' hi hj
    rcases step.accepted_back hi with hold | ⟨hg, -, hlog⟩
    · rcases step.accepted_back hj with hold' | ⟨hg, -⟩
      · exact h.unique g i j a b file file' hold hold'
      · have := h.known i g a file hold
        omega
    · rw [hlog, List.mem_cons] at hj
      rcases hj with heq | hold'
      · obtain ⟨rfl, rfl, rfl⟩ := by simpa using heq
        exact ⟨rfl, rfl, rfl⟩
      · have := h.known j g b file' hold'
        omega

lemma numbered_fresh (w : World) (d : σ) : Numbered (System.fresh w d) := by
  constructor <;> simp [System.fresh]

lemma Numbered.target (h : Numbered s) {g : Nat} {a b : Target} (ha : s.Accepted g a)
    (hb : s.Accepted g b) : a = b := by
  obtain ⟨file, i, hi⟩ := ha
  obtain ⟨file', j, hj⟩ := hb
  exact (h.unique g i j a b file file' hi hj).2.1

/-! ### What calls rely on -/

lemma Control.of_reset {c c' : Controller} {r' : Role} (h : Control .reset c r' c') :
    (r' = .reset ∨ r' = .free) ∧ c'.generation = c.generation ∧ c'.active = c.active ∧
      c'.outcome = c.outcome := by
  generalize hr : Role.reset = r at h
  cases h with
  | stay => exact ⟨.inl rfl, rfl, rfl, rfl⟩
  | resetEnd => exact ⟨.inr rfl, rfl, rfl, rfl⟩
  | conclude outcome => cases hm : outcome.mode <;> simp [Role.ofOutcome, hm] at hr
  | _ => cases hr

/-- A call that has no business with the controller any more relies on nothing. -/
lemma Point.backed_of_free {i : Nat} {call : Call} {p : Point} (free : p.role = .free) :
    p.Backed s i call := by
  cases p with
  | pushing g target stream last rest => cases last <;> cases free
  | concluding g outcome result otherwise =>
    cases hm : outcome.mode <;> simp [Point.role, Role.ofOutcome, hm] at free
  | _ => trivial

/-- What the controller and the calls rely on is borne out, but for resets. -/
structure Grounded (s : System σ) : Prop where
  serving : s.Serving
  backed : s.All fun i call p => p.role ≠ .reset → p.Backed s i call
  backs : s.Backs s.world.controller

theorem Grounded.step (h : Grounded s) (step : Step setup around s t) : Grounded t := by
  refine ⟨step.serving h.serving, ?_, ?_⟩
  · refine h.backed.step step ?_ (fun _ _ _ => trivial) ?_ ?_ ?_
    · intro i call p _ _ hp hrole
      exact (hp hrole).mono step.extends fun hreset => absurd hreset hrole
    · rintro i call p w p' here goes rfl hp hrole
      by_cases hreset : p.role = .reset
      · obtain ⟨hkept | hfree, -⟩ := (hreset ▸ goes.control).of_reset
        · exact absurd hkept hrole
        · exact Point.backed_of_free hfree
      · exact goes.backed (h.serving i call p here) (hp hreset) h.backs
    · intro i call p a hp hrole
      exact resume_backed a (hp (by rwa [resume_role] at hrole))
    · intro i call p hp hrole
      exact wake_backed (hp (by rwa [wake_role] at hrole))
  · have hx := step.extends
    cases step with
    | @move i call p w st here goes =>
      have hgoes := goes_of_move goes
      by_cases hreset : p.role = .reset
      · obtain ⟨-, hgeneration, hactive, houtcome⟩ := (hreset ▸ hgoes.control).of_reset
        have hback := h.backs.mono hx
        exact ⟨fun u hu => hgeneration ▸ hback.active u (hactive ▸ hu),
          fun u hu => hgeneration ▸ hback.delivery u (hactive ▸ hu),
          fun o ho => hgeneration ▸ hback.outcome o (houtcome ▸ ho)⟩
      · exact hgoes.backs (h.backed i call p here hreset) h.backs
    | _ => exact h.backs.mono hx

lemma grounded_fresh (w : World) (d : σ) (hw : w.controller = {}) :
    Grounded (System.fresh w d) := by
  refine ⟨System.all_fresh w d, System.all_fresh w d, ?_⟩
  constructor <;> simp [System.fresh, hw]

/-! ### Opening the delivery -/

/-- The current update takes data: its delivery is open and its final chunk has not come. -/
def TakesData (c : Controller) : Prop := c.state.isOpen ∧ c.active.isSome

/-- A chunk that came was taken by the update that is current. -/
lemma Goes.takes_of_received {w w' : World} {p : Point} {st : Status} {g : Nat} {chunk : Bytes}
    {last : Bool} (h : Goes setup w p w' st)
    (log : Event.of? w p w' st = some (.received g chunk last)) :
    g = w.controller.generation ∧ ∃ number offset u,
      p = .entry (.data number offset chunk last) ∧ Takes w.controller number offset u := by
  have htells := h.tells log
  cases htells with
  | received h fine =>
    refine ⟨rfl, ?_⟩
    cases h with
    | refused code => simp [Event.of?] at log
    | failed code takes delivery kept => exact absurd rfl (fine _ _)
    | written takes delivery write more => exact ⟨_, _, _, rfl, takes⟩
    | finished takes delivery write final synced => exact ⟨_, _, _, rfl, takes⟩
    | pushed takes delivery => exact ⟨_, _, _, rfl, takes⟩

/-- A call that sets an update up did so before, or was just accepted. -/
lemma Goes.setup_back {w w' : World} {p : Point} {st : Status} {g : Nat}
    (h : Goes setup w p w' st) (opens : st.role = .setup g) :
    (p.role = .setup g ∧ w'.controller = w.controller) ∨
      g = w.controller.generation + 1 ∧ w'.controller = w.controller.startUpdate ∧
        ∃ target file, Event.of? w p w' st = some (.accepted g target file) := by
  cases h with
  | @request number size file v st h =>
    cases h with
    | refused code => cases opens
    | @accepted target q known name free goes =>
      right
      have hlog : Event.of? w (.entry (.request number file size))
          { w with controller := w.controller.startUpdate } (.running q) =
            some (.accepted (w.controller.generation + 1) target file) := by
        simp [Event.of?, known, Controller.startUpdate]
      obtain ⟨-, rfl⟩ | rfl := goes
      · cases opens
        exact ⟨rfl, rfl, target, file, hlog⟩
      · cases opens
        exact ⟨rfl, rfl, target, file, hlog⟩
  | data h =>
    cases h with
    | finished takes delivery write final synced =>
      generalize ActiveUpdate.target _ = target at opens
      cases target <;> cases opens
    | @pushed u stream takes delivery =>
      rename_i last
      cases last <;> cases opens
    | _ => cases opens
  | cancel h => cases h <;> cases opens
  | reset h =>
    cases h with
    | refused decision unscheduled => cases opens
    | begun done path =>
      generalize w.controller.outcome = outcome at path
      cases path <;> cases opens
  | inside wraps h =>
    cases wraps with
    | choosing => exact .inl ⟨opens, rfl⟩
    | preparing => exact .inl ⟨opens, rfl⟩
    | _ => cases opens
  | @pushes g stream target last rest rest' slot h => cases last <;> cases opens
  | @stops stream rest rest' slot release reply h => cases release <;> cases opens
  | judged => cases opens
  | _ => first | exact .inl ⟨opens, rfl⟩ | cases opens

/-- The call `i` opens the delivery of the update that it was accepted for. Nothing has come for
that update yet. -/
structure System.Opening (s : System σ) (i g : Nat) : Prop where
  accepted : ∃ target file, (i, .accepted g target file) ∈ s.history
  inactive : s.world.controller.generation = g → s.world.controller.active = none
  empty : ∀ chunk last, ¬ s.Logged (.received g chunk last)

/-- Each update is opened by the call that was accepted for it. -/
structure Founded (s : System σ) : Prop where
  numbered : Numbered s
  past : ∀ g chunk last, s.Logged (.received g chunk last) → g ≤ s.world.controller.generation
  opening : s.All fun i _ p => ∀ g, p.role = .setup g → s.Opening i g

/-- Only one call opens the delivery of an update. -/
lemma Founded.unique (h : Founded s) {i j g : Nat} {call call' : Call} {p q : Point}
    (hi : s.threads[i]? = some ⟨call, .running p⟩) (hj : s.threads[j]? = some ⟨call', .running q⟩)
    (hp : p.role = .setup g) (hq : q.role = .setup g) : i = j := by
  obtain ⟨a, file, ha⟩ := (h.opening i call p hi g hp).accepted
  obtain ⟨b, file', hb⟩ := (h.opening j call' q hj g hq).accepted
  exact (h.numbered.unique g i j a b file file' ha hb).1

lemma Founded.past_step (h : Founded s) (step : Step setup around s t) {g : Nat} {chunk : Bytes}
    {last : Bool} (logged : t.Logged (.received g chunk last)) :
    g ≤ t.world.controller.generation := by
  refine Nat.le_trans ?_ step.generation_le
  obtain hquiet | ⟨i, call, p, w, st, here, goes, rfl⟩ := step.quiet_or_goes
  · exact h.past g chunk last (hquiet.logged logged (by simp))
  · obtain ⟨k, hk⟩ := logged
    rcases mem_moved.mp hk with ⟨-, hnew⟩ | hold
    · exact Nat.le_of_eq (goes.takes_of_received hnew).1
    · exact h.past g chunk last ⟨k, hold⟩

/-- An update that a call opens stays without chunks while another call goes on. -/
lemma Founded.opening_beside (h : Founded s) {i g : Nat} {call : Call} {p : Point}
    (here : s.threads[i]? = some ⟨call, .running p⟩) (role : p.role = .setup g)
    (beside : Beside setup around s i t) : t.Opening i g := by
  have hopening := h.opening i call p here g role
  cases beside with
  | quiet hquiet =>
    obtain ⟨target, file, haccepted⟩ := hopening.accepted
    refine ⟨⟨target, file, ?_⟩, hquiet.controller ▸ hopening.inactive,
      fun chunk last hlogged => hopening.empty chunk last (hquiet.logged hlogged (by simp))⟩
    rcases hquiet.history with hsame | ⟨k, f, a, hnew⟩
    · rwa [hsame]
    · rw [hnew]
      exact List.mem_cons_of_mem _ haccepted
  | @other j call' q w st ne there goes =>
    obtain ⟨target, file, haccepted⟩ := hopening.accepted
    refine ⟨⟨target, file, mem_moved.mpr (.inr haccepted)⟩, ?_, ?_⟩
    · intro hg
      by_contra hsome
      obtain ⟨u, hu⟩ := Option.ne_none_iff_exists'.mp hsome
      obtain ⟨hgeneration, ⟨v, hv, -⟩ | ⟨g', rfl, owner⟩⟩ := goes.active_back hu
      · rw [hopening.inactive (hgeneration.symm.trans hg)] at hv
        cases hv
      · obtain rfl : g' = g :=
          (Controller.owns_iff.mp owner).1.symm.trans (hgeneration.symm.trans hg)
        exact ne (h.unique there here rfl role)
    · rintro chunk last ⟨k, hk⟩
      rcases mem_moved.mp hk with ⟨-, hnew⟩ | hold
      · obtain ⟨rfl, number, offset, u, -, takes⟩ := goes.takes_of_received hnew
        have hnone := hopening.inactive rfl
        rw [takes.active] at hnone
        cases hnone
      · exact hopening.empty chunk last ⟨k, hold⟩

theorem Founded.step (h : Founded s) (step : Step setup around s t) : Founded t := by
  refine ⟨h.numbered.step step, fun g chunk last => h.past_step step, ?_⟩
  refine h.opening.step step (fun i call p here beside hp g role =>
    h.opening_beside here role beside) (fun call _ g role => by cases role) ?_ ?_ ?_
  · rintro i call p w p' here goes rfl hp g role
    rcases goes.setup_back role with ⟨hrole, hcontroller⟩ | ⟨rfl, hcontroller, target, file, hlog⟩
    · obtain ⟨target, file, haccepted⟩ := (hp g hrole).accepted
      refine ⟨⟨target, file, mem_moved.mpr (.inr haccepted)⟩, ?_, ?_⟩
      · show w.controller.generation = g → w.controller.active = none
        rw [hcontroller]
        exact (hp g hrole).inactive
      · rintro chunk last ⟨k, hk⟩
        rcases mem_moved.mp hk with ⟨-, hnew⟩ | hold
        · obtain ⟨-, number, offset, u, rfl, -⟩ := goes.takes_of_received hnew
          cases hrole
        · exact (hp g hrole).empty chunk last ⟨k, hold⟩
    · refine ⟨⟨target, file, mem_moved.mpr (.inl ⟨rfl, hlog⟩)⟩, fun _ => ?_, ?_⟩
      · show w.controller.active = none
        rw [hcontroller]
        rfl
      · rintro chunk last ⟨k, hk⟩
        rcases mem_moved.mp hk with ⟨-, hnew⟩ | hold
        · rw [hlog] at hnew
          cases hnew
        · have := h.past _ chunk last ⟨k, hold⟩
          omega
  · intro i call p a hp g role
    exact hp g (by rwa [resume_role] at role)
  · intro i call p hp g role
    exact hp g (by rwa [wake_role] at role)

lemma founded_fresh (w : World) (d : σ) : Founded (System.fresh w d) := by
  refine ⟨numbered_fresh w d, ?_, System.all_fresh w d⟩
  rintro g chunk last ⟨i, hi⟩
  simp [System.fresh] at hi

lemma Run.founded {w : World} {d : σ} (run : Run setup around (System.fresh w d) s) : Founded s :=
  run.keeps (founded_fresh w d) fun hu step => hu.step step

end DeviceUpdate.Session
