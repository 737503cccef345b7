import DeviceUpdate.Proofs.Session.Files
import DeviceUpdate.Proofs.Session.Replay

/-!
# Rejected requests

A request that fails its first checks touches nothing. One that passes them claims the controller
before it opens its delivery, and if that fails it leaves an idle controller behind. So a rejected
request changes nothing unless it passes the first checks while an outcome waits for a reset: then
the outcome is dropped. The files stay as they are in any case.
-/

namespace DeviceUpdate

/-- A request for this target number and file name passes the first checks. -/
def Controller.Admits (c : Controller) (number : Nat) (file : String) : Prop :=
  (Target.ofNumber? number).isSome ∧ acceptableFileName file ∧ c.accepts

/-- An update that is completed has an outcome. -/
def Controller.Judged (c : Controller) : Prop := c.state = .completed → c.outcome.isSome

/-- A controller that was just claimed by a request. -/
def Controller.claimed (generation : Nat) : Controller :=
  { state := .requested, generation, active := none, outcome := none }

/-- A controller that is free, and has no outcome, is idle. -/
lemma Controller.Judged.idle {c : Controller} (h : c.Judged) (free : c.accepts)
    (none : c.outcome = none) : c.state = .idle := by
  simp only [Controller.accepts, Bool.or_eq_true, beq_iff_eq] at free
  exact free.resolve_right fun hdone => by simpa [none] using h hdone

/-- A setup that fails leaves an idle controller without an outcome. -/
lemma Controller.releaseIfCurrent_claimed (g : Nat) :
    (claimed g).releaseIfCurrent g = { generation := g } := by
  simp [releaseIfCurrent, claimed, release]

namespace Session

section

variable {σ : Type} {setup : Setup} {around : Surroundings σ} {s t u : System σ}

/-! ### A completed update has an outcome -/

lemma Control.judged {c c' : Controller} {r r' : Role} (h : Control r c r' c')
    (judged : c.Judged) : c'.Judged := by
  unfold Controller.Judged at judged ⊢
  cases h with
  | accept free => simp [Controller.startUpdate]
  | setupFailed => grind [Controller.releaseIfCurrent, Controller.release]
  | released => grind [Controller.releaseIfCurrent, Controller.release]
  | @receive number offset chunk last u v c open_ update target mode => cases last <;> simp
  | writeFailed open_ update mode => simp [Controller.release]
  | pushFailed => grind [Controller.release]
  | @conclude g c outcome =>
    obtain ⟨-, heq⟩ | ⟨-, -, heq⟩ | ⟨-, -, heq⟩ := c.conclude_cases g outcome <;> rw [heq]
    · exact judged
    · simp [Controller.release]
    · simp
  | @resetEnd scheduled c => cases scheduled <;> simp
  | install | cancelSetup | cancelActive | cancelEnd | resetBegin => simp
  | _ => exact judged

/-- In every reachable state a completed update has an outcome, however the calls overlap. -/
theorem Run.judged (run : Run setup around s t) (h : s.world.controller.Judged) :
    t.world.controller.Judged := by
  refine run.keeps (P := fun u => u.world.controller.Judged) h fun hu step => ?_
  obtain ⟨call, -, hc, -⟩ | ⟨i, r, hc, -⟩ := step.control
  · rwa [hc]
  · exact hc.judged hu

/-! ### While the update is set up -/

/-- The file of the update is open, but the controller does not know of it yet. -/
def Point.Opened : Point → Prop
  | .settling _ _ (.staged _ _) => True
  | _ => False

lemma Point.Opened.resume {p : Point} (a : Answer) (h : p.Opened) : (p.resume a).Opened := by
  cases p <;> first | exact h | exact h.elim

lemma Point.Opened.wake {p : Point} (h : p.Opened) : p.wake.Opened := by
  cases p <;> exact h

/-- How the request that claimed the controller goes on: it sets the update up further, or its
update is accepted, or it fails and leaves an idle controller. -/
lemma Goes.of_claimed {w w' : World} {p : Point} {st : Status} {g : Nat}
    (h : Goes setup w p w' st) (role : p.role = .setup g) (claimed : w.controller = .claimed g)
    (stays : p.Only Effect.Stays) :
    (∃ p', st = .running p' ∧ p'.role = .setup g ∧ w'.controller = w.controller ∧
      (p'.Opened ∨ ¬ p.Opened ∧ w'.files = w.files)) ∨
    st = .returned (.request (.ok ())) ∨
    (∃ code, st = .returned (.request (.error code)) ∧ w'.controller = { generation := g } ∧
      ¬ p.Opened ∧ w'.files = w.files) := by
  cases h with
  | request h | data h | cancel h | reset h => cases role
  | inside wraps h =>
    cases wraps with
    | choosing | preparing =>
      exact .inl ⟨_, rfl, role, rfl, .inr ⟨id, Procedure.Only.looks stays h⟩⟩
    | _ => cases role
  | chosenDual | chosen | prepared | unprepared | spaceShort | spaceFound | notCreated =>
    exact .inl ⟨_, rfl, role, rfl, .inr ⟨id, rfl⟩⟩
  | created create => exact .inl ⟨_, rfl, role, rfl, .inl trivial⟩
  | setupFailed =>
    obtain rfl := Role.setup.inj role
    exact .inr (.inr ⟨_, rfl, by rw [claimed, Controller.releaseIfCurrent_claimed], id, rfl⟩)
  | settled owner => exact .inr (.inl rfl)
  | lost lost =>
    obtain rfl := Role.setup.inj role
    simp [claimed, Controller.claimed, Controller.owns] at lost
  | @stops stream rest rest' slot release reply h => cases release <;> cases role
  | @pushes g stream target last rest rest' slot h => cases last <;> cases role
  | @recorded g outcome | @givenUp g outcome | @takenBack g outcome =>
    cases hm : outcome.mode <;> simp [Point.role, Role.ofOutcome, hm] at role
  | _ => cases role

/-- A call that comes while a request has claimed the controller is turned away, if it is no
cancel. -/
lemma Goes.of_entering {w w' : World} {p : Point} {st : Status} {call : Call} {g : Nat}
    (h : Goes setup w p w' st) (role : p.role = .entering call) (calm : call.isCancel = false)
    (claimed : w.controller = .claimed g) (stays : p.Only Effect.Stays) :
    w'.controller = w.controller ∧ w'.files = w.files ∧
      ∀ p', st = .running p' → p'.role = .entering call := by
  have hopen : w.controller.active = none := by rw [claimed]; rfl
  have htakes {number offset : Nat} {u : ActiveUpdate} :
      ¬ Takes w.controller number offset u := fun takes => by
    rw [takes.active] at hopen
    cases hopen
  cases h with
  | request h =>
    cases h with
    | refused code => exact ⟨rfl, rfl, by simp⟩
    | accepted known name free goes =>
      simp [claimed, Controller.claimed, Controller.accepts] at free
  | data h =>
    cases h with
    | refused code => exact ⟨rfl, rfl, by simp⟩
    | failed code takes | written takes | finished takes | pushed takes => exact absurd takes htakes
  | cancel h =>
    obtain rfl := Role.entering.inj role
    cases calm
  | reset h =>
    cases h with
    | refused decision unscheduled => exact ⟨rfl, rfl, by simp⟩
    | begun done path => simp [claimed, Controller.claimed] at done
  | bootLayout => exact ⟨rfl, rfl, fun p' hp => by cases hp; exact role⟩
  | inside wraps h =>
    cases wraps with
    | asking =>
      exact ⟨rfl, Procedure.Only.looks stays h, fun p' hp => by cases hp; exact role⟩
    | _ => cases role
  | asked => exact ⟨rfl, rfl, by simp⟩
  | @stops stream rest rest' slot release reply h => cases release <;> cases role
  | @pushes g stream target last rest rest' slot h => cases last <;> cases role
  | @recorded g outcome | @givenUp g outcome | @takenBack g outcome =>
    cases hm : outcome.mode <;> simp [Point.role, Role.ofOutcome, hm] at role
  | _ => cases role

/-- The steps of a run that are taken while the call `i` is under way. -/
abbrev Meanwhile (setup : Setup) (around : Surroundings σ) (i : Nat) :
    System σ → System σ → Prop :=
  Relation.ReflTransGen fun s t => s.Running i ∧ Step setup around s t

lemma Step.length_le (step : Step setup around s t) : s.threads.length ≤ t.threads.length := by
  cases step <;> simp [System.start, System.moved, System.answered]

/-- A call that is under way was so before, if it was made. -/
lemma Step.running_back (step : Step setup around s t) {i : Nat} (made : i < s.threads.length)
    (running : t.Running i) : s.Running i := by
  cases step with
  | start may =>
    obtain ⟨thread, hthread, hrunning⟩ := running
    rw [System.start, List.getElem?_append_left made] at hthread
    exact ⟨thread, hthread, hrunning⟩
  | move here goes => exact running_of_set here rfl running
  | answer here asks gets => exact running_of_set here rfl running
  | wake here waits => exact running_of_set here rfl running
  | engine goes => exact running
  | drift goes => exact running

/-- Until it returns a call is under way all the time. -/
lemma Run.meanwhile (run : Run setup around s t) {i : Nat} (made : i < s.threads.length)
    (running : t.Running i) : Meanwhile setup around i s t := by
  induction run with
  | refl => exact .refl
  | @tail u v before step ih =>
    have hmade : i < u.threads.length :=
      Run.keeps (P := fun u => i < u.threads.length) before made fun hu step =>
        Nat.lt_of_lt_of_le hu step.length_le
    have hrunning : u.Running i := step.running_back hmade running
    exact (ih hrunning).tail ⟨hrunning, step⟩

/-- None of the calls from the number `n` on is a cancel. -/
def System.CalmFrom (n : Nat) (s : System σ) : Prop :=
  ∀ j call st, n ≤ j → s.threads[j]? = some ⟨call, st⟩ → call.isCancel = false

/-- The request `i` has claimed the controller and sets its update up. `files` are those that it
found. Every other call has returned, or is a new one, and no cancel, that has not begun. -/
structure SettingUp (around : Surroundings σ) (i g : Nat) (files : FileSystem) (s : System σ) :
    Prop where
  claimed : s.world.controller = .claimed g
  own : ∃ call p, s.threads[i]? = some ⟨call, .running p⟩ ∧ p.role = .setup g ∧
    (p.Opened ∨ (around.KeepsFiles → s.world.files = files))
  others : s.All fun j call p => j ≠ i → p.role = .entering call ∧ call.isCancel = false
  stays : s.Stays

/-- The request `i` has returned. If it was rejected it has left an idle controller and the files
that it found. -/
def GivenBack (around : Surroundings σ) (i g : Nat) (files : FileSystem) (s : System σ) : Prop :=
  ∃ call r, s.threads[i]? = some ⟨call, .returned r⟩ ∧ ∀ code, r = .request (.error code) →
    s.world.controller = { generation := g } ∧ (around.KeepsFiles → s.world.files = files)

lemma SettingUp.step {i g : Nat} {files : FileSystem} (h : SettingUp around i g files s)
    (step : Step setup around s t) (calm : t.CalmFrom s.threads.length) :
    SettingUp around i g files t ∨ GivenBack around i g files t := by
  have hstays := step.stays h.stays
  have hothers : t.All fun j call p => j ≠ i → p.role = .entering call ∧ call.isCancel = false := by
    refine h.others.step step (fun _ _ _ _ _ hp => hp) ?_ ?_ ?_ ?_
    · rintro call rfl -
      exact ⟨rfl, calm s.threads.length call _ (Nat.le_refl _) List.getElem?_concat_length⟩
    · rintro j call p w p' here goes rfl hp hne
      obtain ⟨hrole, hcalm⟩ := hp hne
      exact ⟨(goes.of_entering hrole hcalm h.claimed (h.stays j call p here)).2.2 p' rfl, hcalm⟩
    · intro j call p a hp hne
      rw [resume_role]
      exact hp hne
    · intro j call p hp hne
      rw [wake_role]
      exact hp hne
  obtain ⟨call, p, here, hrole, hfiles⟩ := h.own
  -- what stays true when the call stands still and the files are kept
  have hstill {v : System σ} {q : Point} (hw : v.world.controller = s.world.controller)
      (hq : v.threads[i]? = some ⟨call, .running q⟩) (hqrole : q.role = .setup g)
      (hopened : p.Opened → q.Opened) (hv : around.KeepsFiles → v.world.files = s.world.files)
      (ho : v.All fun j call p => j ≠ i → p.role = .entering call ∧ call.isCancel = false)
      (hs : v.Stays) :
      SettingUp around i g files v :=
    ⟨hw.trans h.claimed, ⟨call, q, hq, hqrole, hfiles.imp hopened fun hf keeps =>
      (hv keeps).trans (hf keeps)⟩, ho, hs⟩
  cases step with
  | @start next may =>
    refine .inl (hstill rfl ?_ hrole id (fun _ => rfl) hothers hstays)
    rw [System.start, List.getElem?_append_left (List.getElem?_eq_some_iff.mp here).1, here]
  | @move j next q w st there goes =>
    have hgoes := goes_of_move goes
    by_cases hji : j = i
    · subst hji
      obtain ⟨rfl, rfl⟩ : next = call ∧ q = p := by simpa [here] using there.symm
      have hset : (s.threads.set j ⟨next, st⟩)[j]? = some ⟨next, st⟩ :=
        getElem?_set_here here
      rcases hgoes.of_claimed hrole h.claimed (h.stays j next q here) with
        ⟨p', rfl, hrole', hc, hf⟩ | rfl | ⟨code, rfl, hc, hopened, hf⟩
      · refine .inl ⟨hc.trans h.claimed, ⟨next, p', hset, hrole', hf.imp_right ?_⟩, hothers, hstays⟩
        rintro ⟨hopened, hsame⟩ keeps
        exact hsame.trans (hfiles.resolve_left hopened keeps)
      · exact .inr ⟨next, _, hset, by rintro code ⟨⟩⟩
      · exact .inr ⟨next, _, hset, fun _ _ =>
          ⟨hc, fun keeps => hf.trans (hfiles.resolve_left hopened keeps)⟩⟩
    · obtain ⟨hentering, hcalm⟩ := h.others j next q there hji
      obtain ⟨hc, hf, -⟩ := hgoes.of_entering hentering hcalm h.claimed (h.stays j next q there)
      refine .inl (hstill hc ?_ hrole id (fun _ => hf) hothers hstays)
      rwa [System.moved, List.getElem?_set_ne hji]
  | @answer j next q e a device after there asks gets =>
    have hafter (keeps : around.KeepsFiles) : after = s.world.files :=
      keeps.answers _ _ _ _ _ _ gets
    by_cases hji : j = i
    · subst hji
      obtain ⟨rfl, rfl⟩ : next = call ∧ q = p := by simpa [here] using there.symm
      exact .inl (hstill rfl (getElem?_set_here here)
        (by rw [resume_role, hrole]) (Point.Opened.resume a) hafter hothers hstays)
    · refine .inl (hstill rfl ?_ hrole id hafter hothers hstays)
      rwa [System.answered, List.getElem?_set_ne hji]
  | @wake j next q there waits =>
    by_cases hji : j = i
    · subst hji
      obtain ⟨rfl, rfl⟩ : next = call ∧ q = p := by simpa [here] using there.symm
      exact .inl (hstill rfl (getElem?_set_here here)
        (by rw [wake_role, hrole]) Point.Opened.wake (fun _ => rfl) hothers hstays)
    · refine .inl (hstill rfl ?_ hrole id (fun _ => rfl) hothers hstays)
      rwa [List.getElem?_set_ne hji]
  | engine goes => exact .inl (hstill rfl here hrole id (fun _ => rfl) hothers hstays)
  | drift goes =>
    exact .inl (hstill rfl here hrole id (fun keeps => keeps.drifts _ _ _ _ goes) hothers hstays)

/-- Once it has claimed the controller, the request sets its update up until it returns. -/
lemma SettingUp.meanwhile {i g n : Nat} {files : FileSystem} (h : SettingUp around i g files s)
    (run : Meanwhile setup around i s t) (old : n ≤ s.threads.length) (calm : t.CalmFrom n) :
    SettingUp around i g files t ∨ GivenBack around i g files t := by
  have hboth : n ≤ t.threads.length ∧
      (SettingUp around i g files t ∨ GivenBack around i g files t) := by
    induction run with
    | refl => exact ⟨old, .inl h⟩
    | @tail u v _ last ih =>
      obtain ⟨⟨thread, hthread, hrunning⟩, step⟩ := last
      have hcalm : u.CalmFrom n := fun j call st hj there =>
        let ⟨st', hst'⟩ := step.same_call there
        calm j call st' hj hst'
      obtain ⟨hn, hsetting | ⟨call, r, hreturned, -⟩⟩ := ih hcalm
      · exact ⟨Nat.le_trans hn step.length_le, hsetting.step step fun j call st hj =>
          calm j call st (Nat.le_trans hn hj)⟩
      · obtain rfl := Option.some.inj (hthread.symm.trans hreturned)
        cases hrunning
  exact hboth.2

/-! ### Which rejected requests change something -/

/-- A request that passes the first checks claims the controller. -/
lemma enterRequest_of_admits {w : World} {number : Nat} {file : String}
    (admits : w.controller.Admits number file) (setup : Setup) (size : Nat) :
    ∃ p, enterRequest setup w number file size =
      .step { w with controller := w.controller.startUpdate } p := by
  obtain ⟨known, name, free⟩ := admits
  obtain ⟨target, htarget⟩ := Option.isSome_iff_exists.mp known
  rw [enterRequest, htarget]
  simp only [name, free, Bool.not_true, Bool.false_eq_true, if_false]
  exact ⟨_, rfl⟩

/-- A call that was just accepted under a new generation sets its update up. -/
lemma settingUp_of_accepted {i g : Nat} {call : Call} {p : Point} {files : FileSystem}
    (stays : t.Stays) (alone : ∀ j, t.Running j → j = i)
    (claimed : t.world.controller = .claimed g) (same : t.world.files = files)
    (here : t.threads[i]? = some ⟨call, .running p⟩) (role : p.role = .setup g) :
    SettingUp around i g files t :=
  ⟨claimed, ⟨call, p, here, role, .inr fun _ => same⟩,
    fun j _ _ there hji => absurd (alone j ⟨_, there, rfl⟩) hji, stays⟩

/-- A request `i` takes its first step while no other call is under way, and is rejected; nobody
cancels meanwhile, other calls may come. If only calls change files they are as before. State and
outcome are as before too, unless the request passed the first checks while an outcome was waiting
for a reset: then the controller is idle and the outcome is gone. -/
theorem rejected_request_changes_nothing_iff {files : FileSystem} {layout : Option BootLayout}
    {w : World} {d : σ} (built : setup.build files layout = .ok w)
    (reached : Run setup around (System.fresh w d) s) {i number size : Nat} {file : String}
    {code : RequestCode} (alone : ∀ j, s.Running j → j = i)
    (begins : s.Moves setup u i (.request number file size) (.entry (.request number file size)))
    (meanwhile : Meanwhile setup around i u t)
    (calm : t.CalmFrom s.threads.length)
    (rejected : t.threads[i]? =
      some ⟨.request number file size, .returned (.request (.error code))⟩) :
    (around.KeepsFiles → t.world.files = s.world.files) ∧
    (t.world.controller.state = s.world.controller.state ∧
        t.world.controller.outcome = s.world.controller.outcome ↔
      ¬ (s.world.controller.Admits number file ∧ s.world.controller.outcome.isSome)) ∧
    (s.world.controller.Admits number file ∧ s.world.controller.outcome.isSome →
      t.world.controller.state = .idle ∧ t.world.controller.outcome = none) := by
  have hjudged : s.world.controller.Judged :=
    reached.judged (by rw [System.fresh, build_controller built]; simp [Controller.Judged])
  have hstays : s.Stays := reached.keeps (System.all_fresh w d) fun hu step => step.stays hu
  obtain ⟨here, v, st, goes, rfl⟩ := begins
  have hstep : Step setup around s _ := .move here goes
  have hset : (s.threads.set i ⟨.request number file size, st⟩)[i]? = some ⟨_, st⟩ :=
    List.getElem?_set_self (List.getElem?_eq_some_iff.mp here).1
  rcases requestStep_of_result goes with code' | @⟨target, p, known, name, free, goes'⟩
  · -- refused at once, so that no step follows
    have hrefused : ¬ s.world.controller.Admits number file := fun admits => by
      obtain ⟨p, hp⟩ := enterRequest_of_admits admits setup size
      simp [Point.move, hp] at goes
    obtain rfl | ⟨v, ⟨⟨thread, hthread, hrunning⟩, -⟩, -⟩ := meanwhile.cases_head
    · exact ⟨fun _ => rfl, ⟨fun _ => fun admits => hrefused admits.1, fun _ => ⟨rfl, rfl⟩⟩,
        fun admits => absurd admits.1 hrefused⟩
    · obtain rfl := Option.some.inj (hset.symm.trans hthread)
      cases hrunning
  · have hrole : Point.role p = .setup (s.world.controller.generation + 1) := by
      rcases goes' with ⟨-, rfl⟩ | rfl <;> rfl
    have hsetting : SettingUp around i (s.world.controller.generation + 1) s.world.files _ :=
      settingUp_of_accepted (hstep.stays hstays)
        (fun j hj => alone j (running_of_set here rfl hj)) rfl rfl hset hrole
    rcases hsetting.meanwhile meanwhile (by simp [System.moved]) calm with
      hstill | ⟨call, r, hreturned, hback⟩
    · obtain ⟨call, q, hq, -⟩ := hstill.own
      rw [rejected] at hq
      cases hq
    · obtain ⟨rfl, rfl⟩ : _ = call ∧ _ = r := by simpa [rejected] using hreturned
      obtain ⟨hc, hfiles⟩ := hback code rfl
      have hadmits : s.world.controller.Admits number file := ⟨by simp [known], name, free⟩
      refine ⟨hfiles, ?_, fun _ => by simp [hc]⟩
      rw [hc]
      constructor
      · rintro ⟨-, hnone⟩ ⟨-, hsome⟩
        simp [← hnone] at hsome
      · intro hkept
        have hnone : s.world.controller.outcome = none := by
          rw [← Option.not_isSome_iff_eq_none]
          exact fun hsome => hkept ⟨hadmits, hsome⟩
        exact ⟨(hjudged.idle free hnone).symm, hnone.symm⟩

end

/-! ### Two requests that do not fit -/

namespace Small

/-- An update is installed, and waits for its reset. -/
def completing : List Choice :=
  [.start (.request 0 "image.swu" 1), .go 0, .go 0, .go 0, .go 0, .start (.data 0 0 [7] true)] ++
    List.replicate 7 (.go 1)

/-- Then a request comes for which there is no space. -/
def oversizing : List Choice := [.start (.request 0 "next.swu" 2000), .go 2, .go 2, .go 2]

def beforeOversize : System Unit := (follow? (fresh .dual) completing).getD (fresh .dual)

def afterOversize : System Unit := (follow? beforeOversize oversizing).getD (fresh .dual)

/-- The same request is the first one of all. -/
def oversized : System Unit := (fresh .dual).start (.request 0 "next.swu" 2000)

/-- A chunk comes while it looks for space. -/
def crossing : List Choice := [.start (.data 0 0 [7] true), .go 1, .go 0]

def claimedOversize : System Unit :=
  (oversized.go? setup answers 0).getD (fresh .dual)

def beforeRejection : System Unit := (freely? claimedOversize crossing).getD (fresh .dual)

def rejectedOversize : System Unit := (beforeRejection.go? setup answers 0).getD (fresh .dual)

end Small

theorem oversized_request_changes_nothing :
    Small.rejectedOversize.threads[0]? = some ⟨.request 0 "next.swu" 2000,
        .returned (.request (.error .invalidSize))⟩ ∧
      Small.rejectedOversize.world.files = Small.oversized.world.files ∧
      Small.rejectedOversize.world.controller.state = Small.oversized.world.controller.state ∧
      Small.rejectedOversize.world.controller.outcome =
        Small.oversized.world.controller.outcome := by
  have hbuilt : Small.setup.build Small.files (some .dual) = .ok (Small.world .dual) := rfl
  have hreached : Run Small.setup (.free Small.answers) (Small.fresh .dual) Small.oversized :=
    .single (.start trivial)
  have halone (j : Nat) (hj : Small.oversized.Running j) : j = 0 := by
    obtain ⟨thread, hthread, -⟩ := hj
    have := (List.getElem?_eq_some_iff.mp hthread).1
    simp [Small.oversized, Small.fresh, System.fresh, System.start] at this
    exact this
  have hrun : Run Small.setup (.free Small.answers) Small.claimedOversize Small.beforeRejection :=
    Small.run_of_freely (rfl : Small.freely? _ Small.crossing = some Small.beforeRejection)
  have hlast : Step Small.setup (.free Small.answers) Small.beforeRejection
      Small.rejectedOversize :=
    step_of_go (allows_free _).answers
      (rfl : Small.beforeRejection.go? Small.setup Small.answers 0 = some Small.rejectedOversize)
  have hmeanwhile : Meanwhile Small.setup (.free Small.answers) 0 Small.claimedOversize
      Small.rejectedOversize :=
    (hrun.meanwhile (by decide) ⟨_, rfl, rfl⟩).tail ⟨⟨_, rfl, rfl⟩, hlast⟩
  have hcalm : Small.rejectedOversize.CalmFrom Small.oversized.threads.length := by
    intro j call st hj there
    obtain rfl : j = 1 := by
      have hlt : j < 2 := (List.getElem?_eq_some_iff.mp there).1
      have hle : 1 ≤ j := hj
      omega
    cases there
    rfl
  have hkeeps : (Surroundings.free Small.answers).KeepsFiles :=
    Surroundings.keepsFiles_of_answers (fun _ _ _ _ _ _ h => h) (fun _ _ _ => rfl) fun _ _ _ _ => id
  obtain ⟨hfiles, hkept, -⟩ := rejected_request_changes_nothing_iff hbuilt hreached halone
    ⟨rfl, _, _, rfl, rfl⟩ hmeanwhile hcalm rfl
  obtain ⟨hstate, houtcome⟩ := hkept.mpr (by rintro ⟨-, hsome⟩; cases hsome)
  exact ⟨rfl, hfiles hkeeps, hstate, houtcome⟩

/-- A request for which there is no space takes the restart from the update before. -/
theorem oversized_request_drops_outcome :
    Run Small.setup Small.sequential (Small.fresh .dual) Small.beforeOversize ∧
      Small.beforeOversize.world.controller.state = .completed ∧
      Small.beforeOversize.world.controller.outcome = some ⟨.system, .staged, true⟩ ∧
      Small.follow? Small.beforeOversize Small.oversizing = some Small.afterOversize ∧
      Small.afterOversize.threads[2]? = some ⟨.request 0 "next.swu" 2000,
        .returned (.request (.error .invalidSize))⟩ ∧
      Small.afterOversize.world.controller.state = .idle ∧
      Small.afterOversize.world.controller.outcome = none ∧
      (Small.follow? Small.beforeOversize
        (.start (.reset 0 default) :: List.replicate 5 (.go 2))).map (·.threads[2]?) =
          some (some ⟨.reset 0 default, .returned (.reset { rebootScheduled := true })⟩) ∧
      (Small.follow? Small.afterOversize [.start (.reset 0 default), .go 3]).map
        (·.threads[3]?) =
          some (some ⟨.reset 0 default, .returned (.reset { rebootScheduled := false })⟩) :=
  ⟨Small.run_of_follow (rfl : Small.follow? (Small.fresh .dual) Small.completing =
    some Small.beforeOversize), rfl, rfl, rfl, rfl, rfl, rfl, rfl, rfl⟩

end Session

end DeviceUpdate
