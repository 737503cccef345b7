import DeviceUpdate.Proofs.Session.Evidence
import DeviceUpdate.Proofs.Session.Replay

/-!
# Cleaning up

Most calls remove the files of their update before they release the controller. Two do not: a call
whose chunk cannot be written, and one that finds its update cancelled after the recovery system
was asked to install it, release the controller first. From then until they are done the next
update can own the file that they remove.
-/

namespace DeviceUpdate.Session

section

variable {σ : Type} {setup : Setup} {around : Surroundings σ} {s t u : System σ}

/-- At this point a call may still have to empty or remove a file, or to take back a recovery
request. -/
def Point.cleans : Point → Bool
  | .choosing _ _ _ _ _ | .preparing _ _ _ | .starting _ _ _ _ | .checkingSpace _ _ _ _
  | .creating _ _ _ | .settling _ _ _ | .discarding _ (.staged _ _) _ => true
  | .assembling _ _ _ | .removingManifest _ _ _ _ | .checking _ _ _ | .dropping _ _ _
  | .installing _ _ _ _ | .installed _ _ _ _ | .concluding _ _ _ (.withdraw _) => true
  | .withdrawing _ _ | .removing _ _ => true
  | _ => false

/-- The update ended although its files are still there, or its recovery request. -/
def Event.isLate : Event → Bool
  | .writeFailed _ _ | .withdrawn _ _ => true
  | _ => false

/-- The update that the event is about. -/
def Event.generation? : Event → Option Nat
  | .accepted g _ _ | .opened g _ | .received g _ _ | .writeFailed g _ | .cancelled g
  | .assembled g _ _ _ | .handed g _ _ | .installed g _ _ | .recorded g _ | .withdrawn g _
  | .consumed g _ => some g
  | .swapped | .performed _ _ => none

/-! ### Cleanup that is left -/

/-- The roles of calls that clean up before they release the controller. -/
def Role.rests : Role → Prop
  | .setup _ | .undo _ | .staged _ _ => True
  | _ => False

lemma rests_of_cleans {p : Point} {call : Call} (h : p.cleans) (serves : p.Serves call) :
    p.role.rests ∨ p.role = .free := by
  cases p with
  | withdrawing package rest => exact .inr rfl
  | removing path reply => exact .inr rfl
  | concluding g outcome result otherwise =>
    cases otherwise with
    | refuse code => simp [Point.cleans] at h
    | withdraw package =>
      have hmode := serves.2 package rfl
      simp [Point.role, Role.ofOutcome, hmode, Role.rests]
  | discarding g delivery reply => exact .inl trivial
  | choosing | preparing | starting | checkingSpace | creating | settling => exact .inl trivial
  | assembling | removingManifest | checking | dropping | installing | installed =>
    exact .inl trivial
  | _ => simp [Point.cleans] at h

/-- Cleanup that no update rests on any more comes from an update that ended too early. -/
def Tidy (s : System σ) : Prop :=
  s.All fun i _ p => p.cleans → p.role = .free → ∃ e, (i, e) ∈ s.history ∧ e.isLate

/-- A call that is left with nothing but cleanup was so before, or ends its update too early. -/
lemma Goes.freed {w w' : World} {p p' : Point} (h : Goes setup w p w' (.running p'))
    (cleans : p'.cleans) (free : p'.role = .free) :
    (p.cleans ∧ p.role = .free ∧ w'.controller = w.controller) ∨
      ∃ e, Event.of? w p w' (.running p') = some e ∧ e.isLate := by
  generalize hst : Status.running p' = st at h
  cases h with
  | request h =>
    cases h with
    | refused code => cases hst
    | accepted known name free' goes =>
      cases hst
      obtain ⟨-, rfl⟩ | rfl := goes <;> simp [Point.role] at free
  | data h =>
    cases h with
    | failed code takes delivery kept =>
      cases hst
      exact .inr ⟨_, rfl, rfl⟩
    | finished takes delivery write final synced =>
      generalize ActiveUpdate.target _ = target at hst
      cases hst
      cases target <;> simp [Point.role] at free
    | pushed takes delivery =>
      cases hst
      simp [Point.cleans] at cleans
    | _ => cases hst
  | cancel h =>
    cases h with
    | active open_ update same =>
      cases hst
      simp [Point.role] at free
    | lateStream late update delivery =>
      cases hst
      simp [Point.cleans] at cleans
    | _ => cases hst
  | reset h =>
    cases h with
    | refused decision unscheduled => cases hst
    | begun done path =>
      generalize w.controller.outcome = outcome at path
      cases hst
      cases path <;> simp [Point.cleans] at cleans
  | inside wraps h =>
    cases hst
    cases wraps with
    | withdrawing => exact .inl ⟨rfl, rfl, rfl⟩
    | _ => simp [Point.role] at free
  | takenBack lost =>
    cases hst
    exact .inr ⟨_, rfl, rfl⟩
  | withdrawn =>
    cases hst
    exact .inl ⟨rfl, rfl, rfl⟩
  | _ =>
    cases hst
    all_goals simp [Point.cleans, Point.role, Role.ofOutcome, stagedOutcome] at cleans free

lemma cleans_of_resume {p : Point} {a : Answer} (h : (p.resume a).cleans) : p.cleans := by
  cases p with
  | starting g target stream request => rfl
  | scheduling plan => simp [Point.resume, Point.cleans] at h
  | _ => exact h

lemma cleans_of_wake {p : Point} (h : p.wake.cleans) : p.cleans := by
  cases p <;> exact h

theorem Tidy.step (h : Tidy s) (step : Step setup around s t) : Tidy t := by
  refine System.All.step h step ?_ ?_ ?_ ?_ ?_
  · intro i call p _ _ hp hcleans hfree
    obtain ⟨e, he, hlate⟩ := hp hcleans hfree
    exact ⟨e, step.extends.history _ he, hlate⟩
  · intro call _ hcleans
    simp [Point.cleans] at hcleans
  · rintro i call p w p' - goes rfl hp hcleans hfree
    rcases goes.freed hcleans hfree with ⟨hcleans', hfree', -⟩ | ⟨e, hlog, hlate⟩
    · obtain ⟨e, he, hlate⟩ := hp hcleans' hfree'
      exact ⟨e, mem_moved.mpr (.inr he), hlate⟩
    · exact ⟨e, moved_logs hlog, hlate⟩
  · intro i call p a hp hcleans hfree
    exact hp (cleans_of_resume hcleans) (by rwa [resume_role] at hfree)
  · intro i call p hp hcleans hfree
    exact hp (cleans_of_wake hcleans) (by rwa [wake_role] at hfree)

/-- An update that ends too early leaves the controller free for the next one, and its call with
cleanup to do. -/
lemma Tells.ends_early {p : Point} {w : World} {st : Status} {e : Event} {call : Call}
    (h : Tells setup s.world p w st e) (late : e.isLate) (fits : p.role.Fits s.world.controller)
    (serves : p.Serves call) : w.controller.state = .idle ∧ ∃ p', st = .running p' ∧ p'.cleans := by
  cases h with
  | writeFailed code takes delivery => exact ⟨rfl, _, rfl, rfl⟩
  | @withdrawn g outcome result package rest lost =>
    refine ⟨?_, _, rfl, rfl⟩
    have hmode := serves.2 package rfl
    simp only [Point.role, hmode, Role.ofOutcome, Role.Fits] at fits
    obtain ⟨hgeneration, -⟩ := fits
    obtain ⟨-, hne⟩ | ⟨-, heq⟩ := Controller.conclude_lost lost
    · exact absurd hgeneration hne
    · rw [heq]
      rfl
  | _ => simp [Event.isLate] at late

/-! ### Calls of earlier updates -/

/-- The call `i` works for the update of this generation, or did. -/
def System.WorksFor (s : System σ) (i g : Nat) : Prop :=
  ∃ e, (i, e) ∈ s.history ∧ e.generation? = some g

/-- A call in this role works for no other update. -/
def Role.Loyal (g : Nat) : Role → Prop
  | .entering _ => False
  | .setup g' | .undo g' | .push g' | .stream g' | .staged g' _ => g' = g
  | .reset | .free => True

lemma Control.loyal {c c' : Controller} {r r' : Role} {g : Nat} (h : Control r c r' c')
    (hr : r.Loyal g) : r'.Loyal g := by
  cases h with
  | receive => exact absurd hr id
  | @install g' c owner => exact hr
  | _ => first | exact hr | trivial

lemma Tells.loyal {w w' : World} {p : Point} {st : Status} {e : Event} {g : Nat}
    (h : Tells setup w p w' st e) (about : e.generation? = some g) : st.role.Loyal g := by
  cases h with
  | accepted known free goes =>
    obtain rfl : _ = g := by simpa [Event.generation?] using about
    obtain rfl | rfl := goes
    · rfl
    · rfl
  | received h fine =>
    obtain rfl : _ = g := by simpa [Event.generation?] using about
    cases h with
    | finished takes delivery write final synced =>
      generalize ActiveUpdate.target _ = target
      cases target <;> rfl
    | @pushed u stream takes delivery =>
      rename_i last
      cases last <;> rfl
    | _ => trivial
  | cancelled h now before =>
    obtain rfl : _ = g := by simpa [Event.generation?] using about
    cases h <;> first | rfl | trivial
  | assembled assembles =>
    obtain rfl : _ = g := by simpa [Event.generation?] using about
    rfl
  | handed owner =>
    obtain rfl : _ = g := by simpa [Event.generation?] using about
    rfl
  | installed =>
    obtain rfl : _ = g := by simpa [Event.generation?] using about
    rfl
  | consumed h =>
    generalize hst : Status.running _ = st at h
    cases h with
    | refused decision unscheduled => cases hst
    | begun done path =>
      cases hst
      generalize w.controller.outcome = outcome at path
      cases path <;> trivial
  | swapped => simp [Event.generation?] at about
  | _ => trivial

/-- Every call works for one update only. -/
def Loyal (s : System σ) : Prop := s.All fun i _ p => ∀ g, s.WorksFor i g → p.role.Loyal g

theorem Loyal.step (h : Loyal s) (made : s.Made) (step : Step setup around s t) : Loyal t := by
  refine System.All.step h step ?_ ?_ ?_ ?_ ?_
  · rintro i call p - beside hp g ⟨e, he, hg⟩
    rcases beside.silent e he with hold | ⟨f, a, rfl⟩
    · exact hp g ⟨e, hold, hg⟩
    · simp [Event.generation?] at hg
  · rintro call rfl g ⟨e, he, -⟩
    exact absurd (made _ _ he) (Nat.lt_irrefl _)
  · rintro i call p w p' - goes rfl hp g ⟨e, he, hg⟩
    rcases mem_moved.mp he with ⟨-, hlog⟩ | hold
    · exact (goes.tells hlog).loyal hg
    · exact goes.control.loyal (hp g ⟨e, hold, hg⟩)
  · intro i call p a hp g hg
    rw [resume_role]
    exact hp g hg
  · intro i call p hp g hg
    rw [wake_role]
    exact hp g hg

/-! ### Which runs clean up in time -/

/-- All that is known of a system that nobody resets. -/
structure Kept (s : System σ) : Prop where
  resetless : Resetless s
  serving : s.Serving
  made : s.Made
  tidy : Tidy s
  loyal : Loyal s

lemma kept_fresh (w : World) (d : σ) (hw : w.controller = {}) : Kept (System.fresh w d) := by
  refine ⟨resetless_fresh w d hw, System.all_fresh w d, ?_, System.all_fresh w d,
    System.all_fresh w d⟩
  intro k e he
  simp [System.fresh] at he

lemma Kept.step (never : around.NeverResets) (h : Kept s) (step : Step setup around s t) :
    Kept t :=
  ⟨h.resetless.step never step, step.serving h.serving, step.made h.made, h.tidy.step step,
    h.loyal.step h.made step⟩

lemma Run.kept (never : around.NeverResets) (run : Run setup around s t) (h : Kept s) : Kept t :=
  run.keeps h fun hu step => hu.step never step

lemma Run.extends (run : Run setup around s t) : s.Extends t := by
  induction run with
  | refl => exact ⟨fun _ he => he, fun n => .refl _⟩
  | tail _ step ih =>
    have hx := step.extends
    exact ⟨fun e he => hx.history e (ih.history e he), fun n => (ih.grows n).trans (hx.grows n)⟩

/-- Some call still has cleanup to do although the next request can be accepted. -/
def System.Exposed (s : System σ) : Prop :=
  s.world.controller.accepts ∧
    ∃ (i : Nat) (call : Call) (p : Point), s.threads[i]? = some ⟨call, .running p⟩ ∧ p.cleans

/-- The history holds an update that ended too early. -/
def System.EndedEarly (s : System σ) : Prop := ∃ i e, (i, e) ∈ s.history ∧ e.isLate

lemma endedEarly_iff : s.EndedEarly ↔ s.history.any (·.2.isLate) = true := by
  rw [List.any_eq_true]
  constructor
  · rintro ⟨i, e, he, hlate⟩
    exact ⟨(i, e), he, hlate⟩
  · rintro ⟨⟨i, e⟩, he, hlate⟩
    exact ⟨i, e, he, hlate⟩

/-- While the next request can be accepted, only calls of updates that ended too early have cleanup
to do. -/
lemma Kept.endedEarly (h : Kept s) (exposed : s.Exposed) : s.EndedEarly := by
  obtain ⟨hfree, i, call, p, here, hcleans⟩ := exposed
  have hfits := h.resetless.owned.fits_here here
  rcases rests_of_cleans hcleans (h.serving i call p here) with hrests | hrole
  · have hstate : s.world.controller.state = .idle ∨ s.world.controller.state = .completed := by
      simpa [Controller.accepts] using hfree
    change p.role.Fits _ at hfits
    cases hr : p.role <;> rw [hr] at hrests hfits <;> simp only [Role.rests] at hrests
    case setup => grind [Role.Fits]
    case undo => grind [Role.Fits]
    case staged g stage => cases stage <;> grind [Role.Fits, Stage.covers]
  · obtain ⟨e, he, hlate⟩ := h.tidy i call p here hcleans hrole
    exact ⟨i, e, he, hlate⟩

/-- An update that ended too early left cleanup behind when it ended. -/
lemma Run.exposed (never : around.NeverResets) (run : Run setup around s t) (h : Kept s)
    (before : ¬ s.EndedEarly) (early : t.EndedEarly) :
    ∃ u, Run setup around s u ∧ Run setup around u t ∧ u.Exposed := by
  induction run with
  | refl => exact absurd early before
  | @tail u v hrun hstep ih =>
    obtain ⟨i, e, he, hlate⟩ := early
    have hold (hu : (i, e) ∈ u.history) :
        ∃ x, Run setup around s x ∧ Run setup around x v ∧ x.Exposed := by
      obtain ⟨x, hsx, hxu, hx⟩ := ih ⟨i, e, hu, hlate⟩
      exact ⟨x, hsx, hxu.tail hstep, hx⟩
    have hkept := Run.kept never hrun h
    obtain hquiet | ⟨k, call, p, w, st, here, goes, rfl⟩ := hstep.quiet_or_goes
    · rcases hquiet.mem he with hu | ⟨f, a, rfl⟩
      · exact hold hu
      · simp [Event.isLate] at hlate
    · rcases mem_moved.mp he with ⟨rfl, hlog⟩ | hu
      · have hfits := hkept.resetless.owned.fits_here here
        obtain ⟨hidle, p', rfl, hcleans⟩ :=
          (goes.tells hlog).ends_early hlate hfits (hkept.serving i call p here)
        have hfree : w.controller.accepts := by simp [Controller.accepts, hidle]
        refine ⟨_, hrun.tail hstep, .refl, hfree, i, call, p', ?_, hcleans⟩
        simp [System.moved, getElem?_set_here here]
      · exact hold hu

/-- A call of an earlier update has no business with files or commands any more, if no update
ended too early. -/
lemma Kept.leaves (h : Kept s) (early : ¬ s.EndedEarly) {i g : Nat} {call : Call} {p : Point}
    (here : s.threads[i]? = some ⟨call, .running p⟩) (works : s.WorksFor i g)
    (past : g ≠ s.world.controller.generation) :
    (∀ w st, (p.move setup s.world).result? = some (w, st) → w.files = s.world.files) ∧
      ∀ e, p.move setup s.world = .effect e → e = .postUpdate := by
  have hfits := h.resetless.owned.fits_here here
  change p.role.Fits _ at hfits
  have hloyal := h.loyal i call p here g works
  have hrole : p.role = .push g ∨ p.role = .stream g ∨ p.role = .free := by
    cases hr : p.role <;> rw [hr] at hfits hloyal <;> simp only [Role.Loyal] at hloyal
    case setup => exact absurd (hloyal.symm.trans hfits.1.symm) past
    case undo => exact absurd (hloyal.symm.trans hfits.1.symm) past
    case staged => exact absurd (hloyal.symm.trans hfits.1.symm) past
    case push => exact .inl (by rw [hloyal])
    case stream => exact .inr (.inl (by rw [hloyal]))
    case reset => exact absurd hfits h.resetless.state
    case free => exact .inr (.inr rfl)
  have hcleans : p.role = .free → p.cleans = false := by
    intro hfree
    by_contra hc
    rw [Bool.not_eq_false] at hc
    obtain ⟨e, he, hlate⟩ := h.tidy i call p here hc hfree
    exact early ⟨i, e, he, hlate⟩
  constructor
  · intro w st goes
    cases goes_of_move goes with
    | inside wraps hmove =>
      cases wraps with
      | withdrawing => exact absurd (hcleans rfl) (by simp [Point.cleans])
      | _ => simp [Point.role] at hrole
    | removed => exact absurd (hcleans rfl) (by simp [Point.cleans])
    | _ => first | rfl | simp [Point.role] at hrole
  · intro e asks
    cases asks_of_move asks with
    | inside wraps hmove =>
      cases wraps with
      | withdrawing => exact absurd (hcleans rfl) (by simp [Point.cleans])
      | _ => simp [Point.role] at hrole
    | starting => simp [Point.role] at hrole
    | stopping => rfl
    | pushing => rfl
    | scheduling => simp [Point.role] at hrole

/-- Calls clean up in time in exactly those runs in which no update ended too early, neither by a
chunk that could not be written nor by a cancel that came after the recovery system was asked. In
those runs a call of an earlier update changes no file and asks for no command. -/
theorem cleanup_in_time_iff {files : FileSystem} {layout : Option BootLayout} {w : World} {d : σ}
    (built : setup.build files layout = .ok w) (never : around.NeverResets)
    (run : Run setup around (System.fresh w d) s) :
    ((∀ u, Run setup around (System.fresh w d) u → Run setup around u s → ¬ u.Exposed) ↔
      ¬ s.EndedEarly) ∧
    (¬ s.EndedEarly → ∀ i g call p, s.threads[i]? = some ⟨call, .running p⟩ → s.WorksFor i g →
      g ≠ s.world.controller.generation →
        (∀ w' st, (p.move setup s.world).result? = some (w', st) → w'.files = s.world.files) ∧
          ∀ e, p.move setup s.world = .effect e → e = .postUpdate) := by
  have hfresh : Kept (System.fresh w d) := kept_fresh w d (build_controller built)
  refine ⟨⟨fun hnever early => ?_, fun hlate u hu hus hexposed => ?_⟩, ?_⟩
  · have hbefore : ¬ (System.fresh w d).EndedEarly := by
      rintro ⟨i, e, he, -⟩
      simp [System.fresh] at he
    obtain ⟨u, hu, hus, hexposed⟩ := Run.exposed never run hfresh hbefore early
    exact hnever u hu hus hexposed
  · obtain ⟨i, e, he, hl⟩ := (Run.kept never hu hfresh).endedEarly hexposed
    exact hlate ⟨i, e, (Run.extends hus).history _ he, hl⟩
  · intro hlate i g call p here works past
    exact (Run.kept never run hfresh).leaves hlate here works past

end

/-! ### Two runs -/

namespace Small

/-- A request, and a cancel of the update. -/
def cancelled : List Choice :=
  [.start (.request 0 "image.swu" 4), .go 0, .go 0, .go 0, .go 0,
    .start (.cancel 0 .userAbort), .go 1, .go 1, .go 1]

/-- An update that is cancelled after the recovery system was asked to install it. -/
def takenBack : List Choice :=
  [.start (.request 0 "image.swu" 4), .go 0, .go 0, .go 0, .go 0,
    .start (.data 0 0 [100, 97, 116, 97] true), .go 1, .go 1, .go 1, .go 1,
    .start (.cancel 0 .userAbort), .go 2, .go 1, .go 1, .go 1, .go 1]

/-- The next update takes the file name over before the call of the first one is done. -/
def takenOver : List Choice :=
  [.start (.request 0 "image.swu" 4), .go 3, .go 3, .go 3, .go 3, .go 1, .go 1, .go 1]

def afterCancel : System Unit := (overlap? (fresh .single) cancelled).getD (fresh .single)

def afterTakenBack : System Unit := (overlap? (fresh .single) takenBack).getD (fresh .single)

def afterTakenOver : System Unit := (overlap? afterTakenBack takenOver).getD (fresh .single)

lemma run_afterCancel : Run setup overlapping (fresh .single) afterCancel :=
  run_of_overlap (rfl : overlap? (fresh .single) cancelled = some afterCancel)

lemma run_afterTakenBack : Run setup overlapping (fresh .single) afterTakenBack :=
  run_of_overlap (rfl : overlap? (fresh .single) takenBack = some afterTakenBack)

lemma run_afterTakenOver : Run setup overlapping afterTakenBack afterTakenOver :=
  run_of_overlap (rfl : overlap? afterTakenBack takenOver = some afterTakenOver)

end Small

theorem cancelled_update_cleans_up_in_time :
    ¬ Small.afterCancel.EndedEarly ∧ ¬ Small.afterCancel.Exposed := by
  have hbuilt : Small.setup.build Small.files (some .single) = .ok (Small.world .single) := rfl
  have hlate : ¬ Small.afterCancel.EndedEarly := by
    rw [endedEarly_iff]
    exact Bool.false_ne_true
  have h := cleanup_in_time_iff hbuilt (overlapping_neverResets _) Small.run_afterCancel
  exact ⟨hlate, h.1.mpr hlate Small.afterCancel Small.run_afterCancel .refl⟩

/-- The next request can be accepted although the call of a cancelled update still has cleanup to
do, and then that call removes the file of the next update. -/
theorem late_removal_hits_next_update :
    Run Small.setup Small.overlapping (Small.fresh .single) Small.afterTakenBack ∧
      Small.afterTakenBack.Exposed ∧
      Run Small.setup Small.overlapping Small.afterTakenBack Small.afterTakenOver ∧
      Small.afterTakenOver.WorksFor 1 1 ∧ Small.afterTakenOver.world.controller.generation = 2 ∧
      Small.afterTakenOver.Logged (.opened 2 (.staged "dl/image.swu" (some ⟨2, 0⟩))) ∧
      Small.afterTakenOver.world.files.exists? "dl/image.swu" = true ∧
      (Small.afterTakenOver.go? Small.setup Small.answers 1).map
        (·.world.files.exists? "dl/image.swu") = some false := by
  refine ⟨Small.run_afterTakenBack, ⟨rfl, 1, _, _, rfl, rfl⟩, Small.run_afterTakenOver,
    ⟨.withdrawn 1 "dl/image.swu", ?_, rfl⟩, rfl, ⟨3, ?_⟩, rfl, rfl⟩
  · exact List.mem_of_getElem? (i := 4) rfl
  · exact List.mem_of_getElem? (i := 2) rfl

end DeviceUpdate.Session
