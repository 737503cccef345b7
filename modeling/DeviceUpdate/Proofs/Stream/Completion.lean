import DeviceUpdate.Proofs.Stream.Calls

/-!
# How a stream ends

The end of a stream is recorded once. The engine's own report lets one call pass, runs the action
after the install, and then records what came of it, in sections between which other calls go on.
The history tells who passed, what the action answered, and who recorded the end; a call within the
report is always the one that passed.
-/

namespace DeviceUpdate.Stream

/-! ### Accounts of the end -/

section Accounts

variable {α : Type} {s : System}

/-- What a history has of one kind of event, by thread, last first. -/
def account (f : Event → Option α) (h : List (Nat × Event)) : List (Nat × α) :=
  h.filterMap fun (i, e) => (f e).map (i, ·)

lemma account_advance (f : Event → Option α) (i : Nat) (call : Call) (slot : Slot) (st : Status)
    (tells : Option Event) : account f (s.advance i call slot st tells).history =
      ((tells.bind f).map (i, ·)).toList ++ account f s.history := by
  cases tells with
  | none => rfl
  | some e =>
    simp only [account, System.advance, Option.map_some, Option.toList_some, List.singleton_append,
      List.filterMap_cons, Option.bind_some]
    cases f e <;> rfl

lemma mem_account {f : Event → Option α} {h : List (Nat × Event)} {i : Nat} {e : Event} {a : α}
    (he : f e = some a) (hm : (i, e) ∈ h) : (i, a) ∈ account f h :=
  List.mem_filterMap.mpr ⟨(i, e), hm, by simp [he]⟩

lemma ofWake_bind {f : Event → Option α} {p : Point} (hf : f .waited = none) :
    (Event.ofWake? p).bind f = none := by
  cases hw : Event.ofWake? p with
  | none => rfl
  | some e =>
    obtain rfl := Event.ofWake?_eq hw
    exact hf

end Accounts

/-- The end that was recorded. -/
def Event.verdict? : Event → Option EndStatus
  | .signaled status true => some status
  | _ => none

/-- The end that the engine's own report was given. -/
def Event.report? : Event → Option EndStatus
  | .reporting status => some status
  | _ => none

/-- What the action after the install answered. -/
def Event.answer? : Event → Option (Except UpdateError Unit)
  | .performed answer => some answer
  | _ => none

/-- The calls that recorded an end, with that end. -/
abbrev verdicts : List (Nat × Event) → List (Nat × EndStatus) := account Event.verdict?

/-- The calls that were let through to report, with the end they were given. -/
abbrev reports : List (Nat × Event) → List (Nat × EndStatus) := account Event.report?

/-- The answers of the action after the install. -/
abbrev answers : List (Nat × Event) → List (Nat × Except UpdateError Unit) := account Event.answer?

lemma mem_reports {h : List (Nat × Event)} {i : Nat} {status : EndStatus} :
    (i, status) ∈ reports h ↔ (i, .reporting status) ∈ h := by
  refine ⟨fun hm => ?_, mem_account rfl⟩
  obtain ⟨⟨j, e⟩, he, heq⟩ := List.mem_filterMap.mp hm
  obtain ⟨given, hgiven, hpair⟩ := Option.map_eq_some_iff.mp heq
  cases hpair
  cases e <;> cases hgiven
  exact he

/-- The call that was let through was given success, and the action after the install succeeded. -/
def Cleared (h : List (Nat × Event)) : Prop :=
  ∃ i, reports h = [(i, .success)] ∧ answers h = [(i, .ok ())]

/-- The engine reports only by itself: no call signals an end directly. -/
def System.Unsignaled (s : System) : Prop :=
  s.Each fun _ call _ => ∀ status, call ≠ .signal status

/-- A call is within the report: the action after the install runs, or the end is about to be
recorded. -/
def Point.Reporting : Point → Prop
  | .postUpdate | .report _ => True
  | _ => False

/-! ### What a call that goes on has to do with the end -/

section Goes

variable {a b : Slot} {p : Point} {st : Status}

/-- A call is let through to report, or no report begins. -/
lemma Goes.begins (goes : Goes a p b st) :
    ((Event.of? a p st).bind Event.report? = none ∧ b.completing = a.completing ∧
      ∀ q, st = .running q → ¬ q.Reporting) ∨
    ∃ status, (Event.of? a p st).bind Event.report? = some status ∧ a.completing = false ∧
      b.completing = true ∧ b.endStatus = none ∧
      st = .running (if status = .success then .postUpdate else .report .failure) := by
  cases goes with
  | completesSuccess first silent => exact .inr ⟨_, rfl, first, rfl, silent, rfl⟩
  | completesFailure first silent => exact .inr ⟨_, rfl, first, rfl, silent, rfl⟩
  | _ => exact .inl ⟨rfl, rfl, fun q hq => by cases hq <;> exact id⟩

/-- A call that goes on is not answered by the action after the install. -/
lemma Goes.no_answer (goes : Goes a p b st) : (Event.of? a p st).bind Event.answer? = none := by
  cases goes <;> rfl

/-- A call records the end, or the end stays as it is. -/
lemma Goes.decides (goes : Goes a p b st) :
    ((Event.of? a p st).bind Event.verdict? = none ∧ b.endStatus = a.endStatus) ∨
    ∃ status, (Event.of? a p st).bind Event.verdict? = some status ∧ a.endStatus = none ∧
      b.endStatus = some status ∧ (p = .report status ∨ p = .signal status) := by
  cases goes with
  | reportedSuccess silent | reportedFailure silent =>
    refine .inr ⟨_, ?_, silent, rfl, .inl rfl⟩
    simp [Event.of?, Slot.signal, Slot.signaled, silent, Event.verdict?]
  | signals silent => exact .inr ⟨_, rfl, silent, rfl, .inr rfl⟩
  | superseded known =>
    refine .inl ⟨?_, rfl⟩
    simp [Event.of?, Slot.signal, known, Event.verdict?]
  | _ => exact .inl ⟨rfl, rfl⟩

lemma wake_reporting : p.wake.Reporting ↔ p.Reporting := by
  cases p <;> rfl

lemma Point.Held.not_reporting (h : p.Held a) : ¬ p.Reporting := by
  cases p <;> first | exact h.elim | exact id

end Goes

/-! ### The engine's own report -/

/-- How the call `i` stands within the report, by the reports and the answers so far. -/
inductive Reporter (passed : List (Nat × EndStatus))
    (answered : List (Nat × Except UpdateError Unit)) (i : Nat) : Point → Prop
  | performs (this : passed = [(i, .success)]) (unasked : answered = []) :
      Reporter passed answered i .postUpdate
  | clear (this : passed = [(i, .success)]) (done : answered = [(i, .ok ())]) :
      Reporter passed answered i (.report .success)
  | spoiled {e : UpdateError} (this : passed = [(i, .success)])
      (broke : answered = [(i, .error e)]) : Reporter passed answered i (.report .failure)
  | failed (this : passed = [(i, .failure)]) (unasked : answered = []) :
      Reporter passed answered i (.report .failure)

lemma Reporter.passed {l : List (Nat × EndStatus)} {w : List (Nat × Except UpdateError Unit)}
    {i : Nat} {p : Point} (h : Reporter l w i p) : ∃ status, l = [(i, status)] := by
  cases h <;> exact ⟨_, ‹_›⟩

/-- The end is recorded once, one call is let through to report, and the action after the install
answers once. -/
structure Single (s : System) : Prop where
  recorded : (verdicts s.history).map Prod.snd = s.slot.endStatus.toList
  unguarded : s.slot.completing = false → reports s.history = [] ∧ answers s.history = []
  passed : (reports s.history).length ≤ 1
  asked : (answers s.history).length ≤ 1
  within : s.Each fun i _ st => ∀ p, st = .running p → p.Reporting →
    Reporter (reports s.history) (answers s.history) i p

section Single

variable {s : System} {i : Nat} {call : Call} {p : Point} {slot : Slot} {st : Status}

lemma Single.start (h : Single s) (call : Call) : Single (s.start call) where
  recorded := h.recorded
  unguarded := h.unguarded
  passed := h.passed
  asked := h.asked
  within := h.within.start (fun _ _ _ _ h => h) fun p hp hr => by
    cases hp
    cases call <;> exact hr.elim

/-- A call that does not report, and does not come to report, gets on. -/
lemma Single.advance {tells : Option Event} {old : Status} (h : Single s)
    (here : s.threads[i]? = some ⟨call, old⟩) (hreport : tells.bind Event.report? = none)
    (hanswer : tells.bind Event.answer? = none) (hcompleting : slot.completing = s.slot.completing)
    (hst : ∀ q, st = .running q → ¬ q.Reporting)
    (recorded : (((tells.bind Event.verdict?).map (i, ·)).toList ++
      verdicts s.history).map Prod.snd = slot.endStatus.toList) :
    Single (s.advance i call slot st tells) := by
  have hreports : reports (s.advance i call slot st tells).history = reports s.history := by
    rw [reports, account_advance, hreport]
    rfl
  have hanswers : answers (s.advance i call slot st tells).history = answers s.history := by
    rw [answers, account_advance, hanswer]
    rfl
  exact {
    recorded := by rwa [verdicts, account_advance]
    unguarded := by
      rw [hreports, hanswers]
      exact fun hc => h.unguarded (hcompleting.symm.trans hc)
    passed := hreports ▸ h.passed
    asked := hanswers ▸ h.asked
    within := by
      rw [hreports, hanswers]
      exact h.within.advance here (fun _ _ _ _ _ h => h) fun _ q hq hr => (hst q hq hr).elim }

/-- Within the report there is only the call that was let through. -/
lemma Single.reporter (h : Single s) (here : s.threads[i]? = some ⟨call, .running p⟩)
    (hp : p.Reporting) : ∃ status, reports s.history = [(i, status)] :=
  (h.within i call _ here p rfl hp).passed

lemma Single.alone (h : Single s) (here : s.threads[i]? = some ⟨call, .running p⟩)
    (hp : p.Reporting) {j : Nat} {other : Call} {q : Point}
    (there : s.threads[j]? = some ⟨other, .running q⟩) (hq : q.Reporting) : j = i := by
  obtain ⟨_, hthis⟩ := h.reporter here hp
  obtain ⟨_, hother⟩ := h.reporter there hq
  rw [hthis] at hother
  cases hother
  rfl

lemma Single.move (h : Single s) (here : s.threads[i]? = some ⟨call, .running p⟩)
    (goes : Goes s.slot p slot st) : Single (s.moved i call p slot st) := by
  have hdecides := goes.decides
  rcases goes.begins with ⟨hreport, hcompleting, hst⟩ |
    ⟨status, hreport, hfirst, hclosed, hsilent, hst⟩
  · refine h.advance here hreport goes.no_answer hcompleting hst ?_
    rcases hdecides with ⟨hverdict, hend⟩ | ⟨status, hverdict, hsilent, hend, -⟩
    · rw [hverdict, hend]
      exact h.recorded
    · have hnone : verdicts s.history = [] := by simpa [hsilent] using h.recorded
      rw [hverdict, hend, hnone]
      rfl
  · -- the call is let through, so none was before
    obtain ⟨hnone, hunasked⟩ := h.unguarded hfirst
    obtain ⟨hverdict, hend⟩ := hdecides.resolve_right fun ⟨_, _, _, hend, _⟩ => by
      simp [hsilent] at hend
    have hreports : reports (s.moved i call p slot st).history = [(i, status)] := by
      rw [reports, System.moved, account_advance, hreport]
      exact congrArg ((i, status) :: ·) hnone
    have hanswers : answers (s.moved i call p slot st).history = [] := by
      rw [answers, System.moved, account_advance, goes.no_answer]
      exact hunasked
    exact {
      recorded := by
        rw [verdicts, System.moved, account_advance, hverdict]
        exact h.recorded.trans (by rw [← hend]; rfl)
      unguarded hc := by cases hclosed.symm.trans hc
      passed := by rw [hreports]; exact Nat.le_refl _
      asked := by rw [hanswers]; exact Nat.zero_le _
      within := by
        rw [hreports, hanswers]
        refine h.within.advance here (fun j _ _ _ hj _ q hq hr => ?_) fun _ q hq _ => ?_
        · subst hq
          obtain ⟨_, hother⟩ := h.reporter hj hr
          rw [hnone] at hother
          cases hother
        · subst hst
          cases hq
          cases status with
          | success => exact .performs rfl rfl
          | failure => exact .failed rfl rfl }

lemma Single.answer (h : Single s) (here : s.threads[i]? = some ⟨call, .running .postUpdate⟩)
    (a : Except UpdateError Unit) : Single (s.answered i call .postUpdate a) := by
  obtain ⟨hpassed, hunasked⟩ : reports s.history = [(i, .success)] ∧ answers s.history = [] := by
    cases h.within i call _ here _ rfl trivial with
    | performs hpassed hunasked => exact ⟨hpassed, hunasked⟩
  have hreports : reports (s.answered i call .postUpdate a).history = [(i, .success)] := by
    rw [reports, System.answered, account_advance]
    exact hpassed
  have hanswers : answers (s.answered i call .postUpdate a).history = [(i, a)] := by
    rw [answers, System.answered, account_advance]
    exact congrArg ((i, a) :: ·) hunasked
  exact {
    recorded := by
      rw [verdicts, System.answered, account_advance]
      exact h.recorded
    unguarded hc := by
      have hnone := (h.unguarded hc).1
      rw [hpassed] at hnone
      cases hnone
    passed := by rw [hreports]; exact Nat.le_refl _
    asked := by rw [hanswers]; exact Nat.le_refl _
    within := by
      rw [hreports, hanswers]
      refine h.within.advance here (fun j _ _ hji hj _ q hq hr => ?_) fun _ q hq _ => ?_
      · subst hq
        exact (hji (h.alone here trivial hj hr)).elim
      · cases hq
        cases a with
        | ok => exact .clear rfl rfl
        | error => exact .spoiled rfl rfl }

lemma Single.wake (h : Single s) (here : s.threads[i]? = some ⟨call, .running p⟩)
    (held : p.Held s.slot) : Single (s.woken i call p) := by
  refine h.advance here (ofWake_bind rfl) (ofWake_bind rfl) rfl (fun q hq => ?_) ?_
  · cases hq
    exact fun hr => held.not_reporting (wake_reporting.mp hr)
  · rw [ofWake_bind rfl]
    exact h.recorded

theorem single (run : Run .fresh s) : Single s := by
  refine run.keeps (P := Single) ⟨rfl, fun _ => ⟨rfl, rfl⟩, Nat.zero_le _, Nat.zero_le _,
    System.each_fresh⟩ fun _ hu step => ?_
  cases step with
  | start call => exact hu.start call
  | move here goes => exact hu.move here (goes_of_move goes)
  | answer a here asks =>
    obtain rfl := eq_of_postUpdate asks
    exact hu.answer here a
  | wake here waits => exact hu.wake here (held_of_wait waits)

end Single

/-! ### What the report comes to -/

/-- The end that a call is about to record is the one that the report came to. -/
lemma Reporter.right {h : List (Nat × Event)} {i : Nat} {status : EndStatus}
    (hr : Reporter (reports h) (answers h) i (.report status)) :
    status = .success ↔ Cleared h := by
  cases hr with
  | clear this done => exact ⟨fun _ => ⟨i, this, done⟩, fun _ => rfl⟩
  | spoiled this broke =>
    refine ⟨nofun, fun ⟨j, _, ha⟩ => ?_⟩
    rw [broke] at ha
    cases ha
  | failed this unasked =>
    refine ⟨nofun, fun ⟨j, hj, _⟩ => ?_⟩
    rw [this] at hj
    cases hj

/-- As long as the report is under way no end is recorded, and the recorded end is what the report
came to. -/
structure Rightful (s : System) : Prop where
  waiting : s.Each fun _ _ st => ∀ p, st = .running p → p.Reporting → s.slot.endStatus = none
  right : ∀ status, s.slot.endStatus = some status → (status = .success ↔ Cleared s.history)

section Rightful

variable {s t : System} {i : Nat} {call : Call} {p : Point} {slot : Slot} {st : Status}

lemma System.Unsignaled.back (h : t.Unsignaled) (step : Step s t) : s.Unsignaled := by
  intro i call st hi
  obtain ⟨st', ht⟩ := step.keeps_call hi
  exact h i call st' ht

lemma cleared_advance {tells : Option Event} (hreport : tells.bind Event.report? = none)
    (hanswer : tells.bind Event.answer? = none) :
    Cleared (s.advance i call slot st tells).history ↔ Cleared s.history := by
  simp only [Cleared, reports, answers, account_advance, hreport, hanswer, Option.map_none,
    Option.toList_none, List.nil_append]

lemma Rightful.move (h : Rightful s) (single : Single s)
    (here : s.threads[i]? = some ⟨call, .running p⟩) (hcall : ∀ status, p ≠ .signal status)
    (goes : Goes s.slot p slot st) : Rightful (s.moved i call p slot st) := by
  have hdecides := goes.decides
  rcases goes.begins with ⟨hreport, -, hst⟩ | ⟨-, -, -, -, hsilent, -⟩
  · have hcleared : Cleared (s.moved i call p slot st).history ↔ Cleared s.history :=
      cleared_advance hreport goes.no_answer
    rcases hdecides with ⟨-, hend⟩ | ⟨status, -, -, hend, hp⟩
    · exact {
        waiting := h.waiting.advance here (fun _ _ _ _ _ hold q hq hr => hend.trans (hold q hq hr))
          fun _ q hq hr => (hst q hq hr).elim
        right := fun e he => (h.right e (hend.symm.trans he)).trans hcleared.symm }
    · obtain rfl := hp.resolve_right (hcall status)
      have hreporter := single.within i call _ here _ rfl trivial
      exact {
        waiting := h.waiting.advance here
          (fun j _ _ hji hj _ q hq hr => (hji (single.alone here trivial (hq ▸ hj) hr)).elim)
          fun _ q hq hr => (hst q hq hr).elim
        right := fun e he => by
          obtain rfl : status = e := Option.some.inj (hend.symm.trans he)
          exact hreporter.right.trans hcleared.symm }
  · -- the call is let through before any end is recorded
    exact {
      waiting := h.waiting.advance here (fun _ _ _ _ _ _ _ _ _ => hsilent) fun _ _ _ _ => hsilent
      right := fun e he => by cases hsilent.symm.trans he }

lemma Rightful.answer (h : Rightful s) (here : s.threads[i]? = some ⟨call, .running .postUpdate⟩)
    (a : Except UpdateError Unit) : Rightful (s.answered i call .postUpdate a) := by
  have hsilent := h.waiting i call _ here _ rfl trivial
  exact {
    waiting := h.waiting.advance here (fun _ _ _ _ _ hold => hold) fun _ _ _ _ => hsilent
    right := fun e he => by cases hsilent.symm.trans he }

lemma Rightful.wake (h : Rightful s) (here : s.threads[i]? = some ⟨call, .running p⟩)
    (held : p.Held s.slot) : Rightful (s.woken i call p) where
  waiting := h.waiting.advance here (fun _ _ _ _ _ hold => hold) fun _ q hq hr => by
    cases hq
    exact (held.not_reporting (wake_reporting.mp hr)).elim
  right e he := (h.right e he).trans (cleared_advance (ofWake_bind rfl) (ofWake_bind rfl)).symm

theorem rightful (run : Run .fresh s) (hs : s.Unsignaled) : Rightful s := by
  refine run.keeps (P := fun s => s.Unsignaled → Rightful s)
    (fun _ => ⟨System.each_fresh, nofun⟩) (fun {u v} reached hu step hv => ?_) hs
  have hun := hv.back step
  cases step with
  | start call =>
    exact {
      waiting := (hu hun).waiting.start (fun _ _ _ _ hold => hold) fun p hp hr => by
        cases hp
        cases call <;> exact hr.elim
      right := (hu hun).right }
  | @move i call p slot st here goes =>
    refine (hu hun).move (single reached) here (fun status hp => ?_) (goes_of_move goes)
    subst hp
    have hcall : call = .signal status := by
      cases call <;> cases stands reached i _ _ here
      rfl
    exact hun i call _ here status hcall
  | answer a here asks =>
    obtain rfl := eq_of_postUpdate asks
    exact (hu hun).answer here a
  | wake here waits => exact (hu hun).wake here (held_of_wait waits)

end Rightful

/-! ### Calls that return -/

section Returning

variable {s : System}

/-- A call leaves the report only when the end is recorded. -/
lemma Goes.leaves {a b : Slot} {p : Point} {st : Status} (goes : Goes a p b st)
    (hp : p.Reporting) : b.signaled := by
  cases goes with
  | superseded known => exact known
  | reportedSuccess | reportedFailure => rfl
  | _ => exact hp.elim

/-- The call that was let through is within the report until the end is recorded. -/
lemma reporting_or_signaled (run : Run .fresh s) : s.Each fun i _ st =>
    ∀ status, .reporting status ∈ s.deeds i →
      s.slot.signaled ∨ ∃ p, st = .running p ∧ p.Reporting := by
  refine run.keeps (P := fun s => s.Each fun i _ st => ∀ status, .reporting status ∈ s.deeds i →
    s.slot.signaled ∨ ∃ p, st = .running p ∧ p.Reporting) System.each_fresh
    fun reached hu step i call st hi status hm => ?_
  have grows := step.grows
  cases step.turn hi with
  | new last silent =>
    rw [silent, last, deeds_new reached] at hm
    cases hm
  | idle there silent => exact (hu i call st there status (silent ▸ hm)).imp grows.signaled id
  | goes there goes tells =>
    rw [tells, List.mem_append, Option.mem_toList] at hm
    rcases hm with hnew | hold
    · rcases goes.begins with ⟨hreport, -⟩ | ⟨given, -, -, -, -, rfl⟩
      · rw [Option.mem_def.mp hnew] at hreport
        cases hreport
      · exact .inr ⟨_, rfl, by split <;> trivial⟩
    · refine .inl ?_
      rcases hu i call _ there status hold with hsignaled | ⟨p, hp, hreporting⟩
      · exact grows.signaled hsignaled
      · cases hp
        exact goes.leaves hreporting
  | @answered a there tells => exact .inr ⟨_, rfl, by cases a <;> trivial⟩
  | woken there held tells =>
    rw [tells, List.mem_append, Option.mem_toList] at hm
    rcases hm with hnew | hold
    · cases Event.ofWake?_eq hnew
    · refine (hu i call _ there status hold).imp grows.signaled fun ⟨p, hp, hreporting⟩ => ?_
      cases hp
      exact ⟨_, rfl, wake_reporting.mpr hreporting⟩

lemma Goes.end_of_aborted {a b : Slot} {p : Point} {status : EndStatus}
    (goes : Goes a p b (.returned (.aborted status))) : b.endStatus = some status := by
  cases goes with
  | aborted done => exact done

/-- An abort that returned gave the recorded end. -/
theorem end_of_aborted (run : Run .fresh s) : s.Each fun _ _ st =>
    ∀ status, st = .returned (.aborted status) → s.slot.endStatus = some status := by
  refine run.keeps (P := fun s => s.Each fun _ _ st => ∀ status,
    st = .returned (.aborted status) → s.slot.endStatus = some status) System.each_fresh
    fun _ hu step i call st hi status hst => ?_
  cases step.turn hi with
  | new => cases hst
  | idle there => exact step.grows.status _ (hu i call st there status hst)
  | goes there goes =>
    subst hst
    exact goes.end_of_aborted
  | answered => cases hst
  | woken => cases hst

/-- The end of a stream is recorded once and for all. One call at most records it, one at most is
let through to report, and the action after the install runs once at most. An abort that returns
gives the recorded end, and a stream that succeeded stays so. If the engine reports only by itself,
the end is success just when the report was one of success and the action succeeded. -/
theorem completion_decided_once (run : Run .fresh s) :
    (∀ t status, Run s t → s.slot.endStatus = some status → t.slot.endStatus = some status) ∧
      (verdicts s.history).length ≤ 1 ∧
      (verdicts s.history).map Prod.snd = s.slot.endStatus.toList ∧
      (∀ (i : Nat) (status : EndStatus),
        s.threads[i]? = some ⟨.signal status, .returned (.signaled true)⟩ →
          (i, status) ∈ verdicts s.history) ∧
      (reports s.history).length ≤ 1 ∧ (answers s.history).length ≤ 1 ∧
      (∀ (i : Nat) (call : Call), s.threads[i]? = some ⟨call, .running .postUpdate⟩ →
        reports s.history = [(i, .success)] ∧ answers s.history = []) ∧
      (∀ (i : Nat) (call : Call) (status : EndStatus),
        s.threads[i]? = some ⟨call, .returned (.aborted status)⟩ →
          s.slot.endStatus = some status) ∧
      (∀ t, Run s t → s.slot.succeeded → t.slot.succeeded) ∧
      (∀ (i : Nat) (status : EndStatus) (call : Call) (r : Reply),
        (i, status) ∈ reports s.history → s.threads[i]? = some ⟨call, .returned r⟩ →
          s.slot.signaled) ∧
      (s.Unsignaled →
        (∀ status, s.slot.endStatus = some status → (status = .success ↔ Cleared s.history)) ∧
          (s.slot.succeeded → Cleared s.history)) := by
  have h := single run
  refine ⟨fun t status later => later.grows.status status, ?_, h.recorded, ?_, h.passed, h.asked,
    ?_, fun i call status hi => end_of_aborted run i call _ hi status rfl,
    fun t later => later.grows.succeeded, ?_, fun unsignaled => ?_⟩
  · rw [← List.length_map (f := Prod.snd), h.recorded]
    cases s.slot.endStatus <;> simp
  · intro i status hi
    have htold : .signaled status true ∈ s.deeds i := by
      rw [told run i _ _ hi _ _ rfl rfl]
      exact List.mem_cons_self
    exact mem_account rfl (mem_deeds.mp htold)
  · intro i call hi
    cases h.within i call _ hi _ rfl trivial with
    | performs this unasked => exact ⟨this, unasked⟩
  · intro i status call r hreport hi
    have htold : .reporting status ∈ s.deeds i := mem_deeds.mpr (mem_reports.mp hreport)
    exact (reporting_or_signaled run i call _ hi status htold).resolve_right
      fun ⟨p, hp, _⟩ => by cases hp
  · have hright := (rightful run unsignaled).right
    refine ⟨hright, fun hs => ?_⟩
    simp only [Slot.succeeded, Bool.and_eq_true, beq_iff_eq] at hs
    exact (hright _ hs.1).mp rfl

/-- Two reports race while an abort waits; the first of them ends the stream. -/
def racingReports : List Choice :=
  [.start (.complete .success), .start (.complete .failure), .start .abort, .go 0, .go 1, .go 2,
    .answer 0 (.ok ()), .go 2, .go 0, .go 2, .go 0]

def afterRacingReports : System := (System.fresh.replay? racingReports).getD .fresh

theorem first_report_counts :
    reports afterRacingReports.history = [(0, .success)] ∧
      verdicts afterRacingReports.history = [(0, .success)] ∧
      afterRacingReports.slot.endStatus = some .success ∧ Cleared afterRacingReports.history := by
  have run : Run .fresh afterRacingReports :=
    run_of_replay (rfl : System.fresh.replay? racingReports = some afterRacingReports)
  obtain ⟨-, -, -, -, -, -, -, haborted, -, -, hright⟩ := completion_decided_once run
  have unsignaled : afterRacingReports.Unsignaled := by
    intro i call st hi status hcall
    have hcalls : afterRacingReports.threads.map Thread.call =
      [.complete .success, .complete .failure, .abort] := rfl
    have hmem : call ∈ afterRacingReports.threads.map Thread.call :=
      List.mem_map.mpr ⟨_, List.mem_of_getElem? hi, rfl⟩
    simp [hcalls, hcall] at hmem
  exact ⟨rfl, rfl, haborted 2 .abort .success rfl, (hright unsignaled).2 rfl⟩

end Returning

end DeviceUpdate.Stream
