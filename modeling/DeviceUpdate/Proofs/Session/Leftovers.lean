import DeviceUpdate.Proofs.Session.Downloads
import DeviceUpdate.Proofs.Session.Exclusive
import DeviceUpdate.Proofs.Session.Holding
import DeviceUpdate.Proofs.Session.Ledger
import DeviceUpdate.Proofs.Session.Sole

/-!
# What an update leaves in the download directory

Each file that an update makes is minded by one call after another, and by the controller while
more data may come. The last call removes it, unless it is a package that the recovery system is
to install. This holds of updates that have the controller to themselves.
-/

namespace DeviceUpdate

lemma SessionState.not_open_of_late {state : SessionState} (late : state.isLate) :
    ¬ state.isOpen := by
  rcases late with h | h <;> simp [h, SessionState.isOpen]

namespace Session

variable {σ : Type} {setup : Setup} {around : Surroundings σ} {s t : System σ}

/-! ### Files that are gone -/

/-- A call at this point may still make a file. -/
def Point.Fills : Point → Prop
  | .assembling _ _ _ => True
  | p => ∃ g, p.role = .setup g

/-- The file is gone, and no call makes another one before the next request. -/
structure Gone (path : String) (s : System σ) : Prop where
  closed : ¬ s.world.controller.state.isOpen
  still : s.All fun _ _ p => ¬ p.Fills
  gone : s.world.files.exists? path = false

lemma Goes.fills_back {w w' : World} {p p' : Point} (h : Goes setup w p w' (.running p'))
    (fills : p'.Fills) (same : w'.controller.generation = w.controller.generation) :
    p.Fills ∨ w.controller.state.isOpen := by
  by_cases hsetup : ∃ g, p'.role = .setup g
  · obtain ⟨g, hg⟩ := hsetup
    rcases h.setup_back hg with ⟨hrole, -⟩ | ⟨-, hnext, -⟩
    · left
      cases p with
      | assembling => trivial
      | _ => exact ⟨g, hrole⟩
    · rw [hnext] at same
      exact absurd same (Nat.succ_ne_self _)
  · obtain ⟨g, target, manifest, rfl⟩ :
        ∃ g target manifest, p' = .assembling g target manifest := by
      cases p' with
      | assembling g target manifest => exact ⟨g, target, manifest, rfl⟩
      | _ => exact absurd fills hsetup
    generalize hst : Status.running (.assembling g target manifest) = st at h
    cases h with
    | request h =>
      cases h with
      | refused code => cases hst
      | accepted known name free goes =>
        cases hst
        simp at goes
    | data h =>
      cases h with
      | finished takes delivery write final synced => exact .inr takes.open_
      | _ => cases hst
    | cancel h => cases h <;> cases hst
    | reset h =>
      cases h with
      | refused decision unscheduled => cases hst
      | begun done path =>
        generalize w.controller.outcome = outcome at path
        cases hst
        cases path
    | inside wraps h => cases wraps <;> cases hst
    | _ => cases hst

/-- A call that makes no file only removes some, if no chunk is taken. -/
lemma Goes.only_removes {w w' : World} {p : Point} {st : Status} (h : Goes setup w p w' st)
    (stays : p.Only Effect.Stays) (still : ¬ p.Fills) (closed : ¬ w.controller.state.isOpen) :
    w'.files = w.files ∨ ∃ path, w'.files = w.files.removeIfPossible path := by
  cases h with
  | request h =>
    left
    cases h <;> rfl
  | data h =>
    cases h with
    | refused code => exact .inl rfl
    | failed code takes | written takes | finished takes | pushed takes =>
      exact absurd takes.open_ closed
  | cancel h =>
    left
    cases h <;> rfl
  | reset h =>
    left
    cases h <;> rfl
  | inside wraps h =>
    left
    cases wraps <;> exact Procedure.Only.looks stays h
  | created create => exact absurd ⟨_, rfl⟩ still
  | assembled assembles => exact absurd trivial still
  | discardedFile | manifestRemoved | notAssembled | dropped | removed => exact .inr ⟨_, rfl⟩
  | used other => exact .inr ⟨_, rfl⟩
  | _ => exact .inl rfl

lemma closed_step (h : ¬ s.world.controller.state.isOpen) (step : Step setup around s t)
    (same : t.world.controller.generation = s.world.controller.generation) :
    ¬ t.world.controller.state.isOpen := by
  obtain ⟨call, -, hc, -⟩ | ⟨i, r, hc, -⟩ := step.control
  · rwa [hc]
  · exact hc.stays_closed h same

theorem Gone.step {path : String} (h : Gone path s) (stays : s.Stays)
    (keeps : around.KeepsNames setup) (stored : Stored setup path) (step : Step setup around s t)
    (same : t.world.controller.generation = s.world.controller.generation) : Gone path t := by
  refine ⟨closed_step h.closed step same, ?_, ?_⟩
  · refine h.still.step step (fun _ _ _ _ _ hp => hp) (fun call _ ⟨g, hg⟩ => by cases hg) ?_ ?_ ?_
    · rintro i call p w p' - goes rfl hp hfills
      exact (goes.fills_back hfills same).elim hp h.closed
    · intro i call p a hp hfills
      refine hp ?_
      cases p with
      | starting g target stream request => exact ⟨g, rfl⟩
      | _ => exact hfills
    · intro i call p hp hfills
      refine hp ?_
      cases p <;> exact hfills
  · obtain hquiet | ⟨i, call, p, w, st, here, goes, rfl⟩ := step.quiet_or_goes
    · rw [(hquiet.names keeps).there stored.inDownloads, h.gone]
    · show w.files.exists? path = false
      rcases goes.only_removes (stays i call p here) (h.still i call p here) h.closed with
        hsame | ⟨other, hremoved⟩
      · rw [hsame, h.gone]
      · rw [hremoved]
        exact FileSystem.gone_removeIfPossible h.gone other

/-! ### Every file is minded -/

/-- The package was installed on a single system partition, and the outcome was recorded. -/
def System.Keeps (s : System σ) (g : Nat) (path : String) : Prop :=
  ∃ i, (i, .installed g path (.ok .single)) ∈ s.history ∧ ∃ o, (i, .recorded g o) ∈ s.history

/-- Somebody looks after the file: a call, or the controller; or it is gone, or stays for the
recovery system. -/
inductive Minded (g : Nat) (path : String) (s : System σ) : Prop
  | byCall {i : Nat} {call : Call} {p : Point} (here : s.threads[i]? = some ⟨call, .running p⟩)
      (minds : p.Minds path)
  | active {u : ActiveUpdate} {file : Option Handle} (open_ : s.world.controller.state.isOpen)
      (update : s.world.controller.active = some u) (delivery : u.delivery = .staged path file)
  | gone (gone : Gone path s)
  | kept (keeps : s.Keeps g path)

/-- A call that is left with cleanup, or undoes its update, or carries it to its end. -/
def Point.Removes (p : Point) : Prop :=
  (∃ g, p.role = .undo g) ∨ (∃ g stage, p.role = .staged g stage) ∨ p.cleans ∧ p.role = .free

/-- While such a call is under way no other one makes a file, and no chunk is taken. -/
lemma Steady.still_of_removes (h : Steady s) {i : Nat} {call : Call} {p : Point}
    (here : s.threads[i]? = some ⟨call, .running p⟩) (removes : p.Removes) :
    ¬ s.world.controller.state.isOpen ∧ ∀ j call' q, j ≠ i →
      s.threads[j]? = some ⟨call', .running q⟩ → ¬ q.Fills := by
  have hfits := h.fits here
  have hfills {j : Nat} {call' : Call} {q : Point}
      (there : s.threads[j]? = some ⟨call', .running q⟩)
      (fills : q.Fills) :
      (∃ k, q.role = .setup k) ∨ ∃ k stage, q.role = .staged k stage := by
    cases q with
    | assembling k target manifest => exact .inr ⟨k, _, rfl⟩
    | _ => exact .inl fills
  have hapart {j : Nat} {call' : Call} {q : Point} (ne : j ≠ i)
      (there : s.threads[j]? = some ⟨call', .running q⟩) : ¬ p.role.Clashes q.role := by
    have := h.owned.apart i j (Ne.symm ne)
    rwa [role_of_getElem? here, role_of_getElem? there] at this
  obtain ⟨g, hrole⟩ | ⟨g, stage, hrole⟩ | ⟨hcleans, hfree⟩ := removes
  · rw [hrole] at hfits
    obtain ⟨-, hstate, hactive⟩ := hfits
    refine ⟨by simp [hstate, SessionState.isOpen], fun j call' q ne there fills => ?_⟩
    obtain ⟨k, hk⟩ | ⟨k, stage, hk⟩ := hfills there fills
    · exact hapart ne there (by rw [hrole, hk]; trivial)
    · have hfits' := h.fits there
      rw [hk] at hfits'
      simp [hactive, Role.Fits] at hfits'
  · rw [hrole] at hfits
    obtain ⟨-, hstate, hactive, -⟩ := hfits
    refine ⟨?_, fun j call' q ne there fills => ?_⟩
    · cases stage <;> grind [Stage.covers, SessionState.isOpen]
    · obtain ⟨k, hk⟩ | ⟨k, stage', hk⟩ := hfills there fills
      · have hfits' := h.fits there
        rw [hk] at hfits'
        simp [hfits'.2.2] at hactive
      · exact hapart ne there (by rw [hrole, hk]; trivial)
  · have hidle := h.clear i call p here hcleans hfree
    refine ⟨fun hopen => hidle (.inl hopen), fun j call' q ne there fills => ?_⟩
    have hholds : q.role.Holds := by
      obtain ⟨k, hk⟩ | ⟨k, stage, hk⟩ := hfills there fills <;> rw [hk] <;> trivial
    exact hidle (Role.busy_of_holds hholds (h.fits there))

/-- A file that such a call takes away stays away. -/
lemma Steady.gone_of_removes (h : Steady s) {i : Nat} {call : Call} {p : Point} {w : World}
    {st : Status} {path : String} (here : s.threads[i]? = some ⟨call, .running p⟩)
    (removes : p.Removes) (still : ∀ q, st = .running q → ¬ q.Fills)
    (gone : w.files.exists? path = false) (step : Step setup around s (s.moved i call p w st))
    (same : w.controller.generation = s.world.controller.generation) :
    Gone path (s.moved i call p w st) := by
  obtain ⟨hclosed, hothers⟩ := h.still_of_removes here removes
  exact ⟨closed_step hclosed step same,
    System.All.set (P := fun j _ q => j ≠ i → ¬ q.Fills)
      (fun j call' q there hj => hothers j call' q hj there) here (fun j call' q hj _ hq => hq hj)
      still, gone⟩

/-- How a call goes on that minds a file. -/
inductive Passes (w : World) (path : String) (p : Point) (w' : World) : Status → Prop
  | minds {q : Point} (minds : q.Minds path) : Passes w path p w' (.running q)
  | settled {g : Nat} {target : Target} {file : Option Handle} {r : Reply}
      (role : p.role = .setup g) (owner : w.controller.owns g)
      (now : w'.controller = { w.controller with active := some ⟨target, 0, .staged path file⟩ }) :
      Passes w path p w' (.returned r)
  | removed {st : Status} (removes : p.Removes) (still : ∀ q, st = .running q → ¬ q.Fills)
      (files : w'.files = w.files.removeIfPossible path) : Passes w path p w' st
  | recorded {g : Nat} {outcome : UpdateOutcome} {result : Except DataCode Unit} {r : Reply}
      (here : p = .concluding g outcome result (.withdraw path))
      (log : Event.of? w p w' (.returned r) = some (.recorded g outcome)) :
      Passes w path p w' (.returned r)

lemma Goes.passes {w w' : World} {p : Point} {st : Status} {path : String}
    (h : Goes setup w p w' st) (minds : p.Minds path) : Passes w path p w' st := by
  cases h with
  | inside wraps h => cases wraps <;> exact .minds minds
  | @settled g target delivery owner =>
    cases delivery with
    | staged file handle =>
      obtain rfl : file = path := minds
      exact .settled rfl owner rfl
    | streaming stream => exact minds.elim
  | @lost g target delivery lost => cases delivery <;> exact .minds minds
  | discardedFile =>
    obtain rfl : _ = path := minds
    refine .removed (.inl ⟨_, rfl⟩) (fun q hq => ?_) rfl
    cases hq
    rintro ⟨g, ⟨⟩⟩
  | assembled assembles =>
    obtain rfl : _ = path := minds
    exact .minds (.inl rfl)
  | @manifestRemoved g target manifest package =>
    rcases minds with rfl | hpackage
    · refine .removed (.inr (.inl ⟨_, _, rfl⟩)) (fun q hq => ?_) rfl
      cases hq
      rintro ⟨g, ⟨⟩⟩
    · exact .minds (Except.ok.inj hpackage)
  | notAssembled =>
    obtain rfl : _ = path := minds.resolve_right (by simp)
    refine .removed (.inr (.inl ⟨_, _, rfl⟩)) (fun q hq => ?_) rfl
    cases hq
    rintro ⟨g, ⟨⟩⟩
  | handed owner | unwanted lost | installDone | kept | takenBack lost | withdrawn =>
    exact .minds minds
  | dropped | used other =>
    obtain rfl : _ = path := minds
    refine .removed (.inr (.inl ⟨_, _, rfl⟩)) (fun q hq => ?_) rfl
    cases hq
    rintro ⟨g, ⟨⟩⟩
  | @recorded g outcome result otherwise current =>
    cases otherwise with
    | refuse code => exact minds.elim
    | withdraw package =>
      obtain rfl : package = path := minds
      exact .recorded rfl (by simp [Event.of?, current])
  | removed =>
    obtain rfl : _ = path := minds
    exact .removed (.inr (.inr ⟨rfl, rfl⟩)) (fun q hq => by cases hq) rfl
  | _ => exact minds.elim

/-- How the active update goes on that is written to a file. -/
lemma Sole.active_on {g : Nat} (h : Sole g s) {i : Nat} {call : Call} {p : Point} {w : World}
    {st : Status} (here : s.threads[i]? = some ⟨call, .running p⟩)
    (goes : Goes setup s.world p w st)
    (same : w.controller.generation = s.world.controller.generation)
    (open_ : s.world.controller.state.isOpen) {u : ActiveUpdate} {path : String}
    {file : Option Handle} (update : s.world.controller.active = some u)
    (delivery : u.delivery = .staged path file) : st.Minds path ∨ w.controller.state.isOpen ∧
      ∃ v file', w.controller.active = some v ∧ v.delivery = .staged path file' := by
  have hfits := h.steady.fits here
  have hstill {c : Controller} (hc : c = s.world.controller) : c.state.isOpen ∧
      ∃ v file', c.active = some v ∧ v.delivery = .staged path file' := by
    rw [hc]
    exact ⟨open_, u, file, update, delivery⟩
  have hclosed (removes : p.Removes) : False :=
    (h.steady.still_of_removes here removes).1 open_
  have hconcluding {k : Nat} {outcome : UpdateOutcome} {result : Except DataCode Unit}
      {otherwise : Otherwise} (hp : p = .concluding k outcome result otherwise) :
      s.world.controller.generation ≠ k := by
    subst hp
    rcases h.role_of_concluding here with hrole | hne
    · exact (hclosed (.inr (.inl ⟨k, .ending, hrole⟩))).elim
    · exact fun hk => hne (hk.symm.trans h.current)
  have htakes {number offset : Nat} {v : ActiveUpdate} {path' : String} {file' : Option Handle}
      (takes : Takes s.world.controller number offset v) (hd : v.delivery = .staged path' file') :
      path' = path := by
    obtain rfl : v = u := Option.some.inj (takes.active.symm.trans update)
    rw [delivery] at hd
    exact (Delivery.staged.inj hd).1.symm
  cases goes with
  | request h =>
    cases h with
    | refused code => exact .inr (hstill rfl)
    | accepted known name free goes => exact absurd same (Nat.succ_ne_self _)
  | data h =>
    cases h with
    | refused code => exact .inr (hstill rfl)
    | failed code takes hd kept => exact .inl (htakes takes hd)
    | written takes hd write more =>
      obtain rfl := htakes takes hd
      exact .inr ⟨.inr rfl, _, _, rfl, rfl⟩
    | finished takes hd write final synced =>
      obtain rfl := htakes takes hd
      left
      generalize ActiveUpdate.target _ = target
      cases target <;> rfl
    | pushed takes hd =>
      obtain rfl : u = _ := Option.some.inj (update.symm.trans takes.active)
      rw [delivery] at hd
      cases hd
  | cancel h =>
    cases h with
    | ignored => exact .inr (hstill rfl)
    | early open_ none =>
      rw [update] at none
      cases none
    | active open_ update' same =>
      obtain rfl : u = _ := Option.some.inj (update.symm.trans update')
      left
      show Point.Minds path (.discarding _ u.delivery _)
      rw [delivery]
      rfl
    | late late => exact absurd open_ (SessionState.not_open_of_late late)
    | lateStream late => exact absurd open_ (SessionState.not_open_of_late late)
  | reset h =>
    cases h with
    | refused decision unscheduled => exact .inr (hstill rfl)
    | begun done path => simp [SessionState.isOpen, done] at open_
  | settled owner =>
    have hnone := hfits.2.2
    rw [update] at hnone
    cases hnone
  | setupFailed =>
    have hnone := hfits.2.2
    rw [update] at hnone
    cases hnone
  | released => exact (hclosed (.inl ⟨_, rfl⟩)).elim
  | @pushFailed k code =>
    have hne : k ≠ g := h.other_of_role here (.inl rfl)
    have howns : ¬ s.world.controller.owns k := fun owner =>
      hne ((Controller.owns_iff.mp owner).1.symm.trans h.current)
    exact .inr (hstill (if_neg howns))
  | handed owner => exact (hclosed (.inr (.inl ⟨_, _, rfl⟩))).elim
  | recorded current => exact absurd (Controller.conclude_eq current).1 (hconcluding rfl)
  | givenUp lost =>
    rcases Controller.conclude_lost lost with ⟨hsame, -⟩ | ⟨hk, -⟩
    · exact .inr (hstill hsame)
    · exact absurd hk (hconcluding rfl)
  | takenBack lost =>
    rcases Controller.conclude_lost lost with ⟨hsame, -⟩ | ⟨hk, -⟩
    · exact .inr (hstill hsame)
    · exact absurd hk (hconcluding rfl)
  | resetDone =>
    have hstate : s.world.controller.state = .resetDecision := hfits
    simp [SessionState.isOpen, hstate] at open_
  | _ => exact .inr (hstill rfl)

/-- A call that minds a file passes it on, or the file is gone, or is to stay. -/
lemma Sole.minded_of_goes {g : Nat} (h : Sole g s) (balanced : Balanced setup s) {i : Nat}
    {call : Call} {p : Point} {w : World} {st : Status} {path : String}
    (here : s.threads[i]? = some ⟨call, .running p⟩) (goes : Goes setup s.world p w st)
    (step : Step setup around s (s.moved i call p w st))
    (same : w.controller.generation = s.world.controller.generation) (minds : p.Minds path)
    (stored : Stored setup path) (plain : s.world.files.isDirectory path = false) :
    Minded g path (s.moved i call p w st) := by
  have hlt := (List.getElem?_eq_some_iff.mp here).1
  have hfits := h.steady.fits here
  cases goes.passes minds with
  | minds hminds => exact .byCall (i := i) (List.getElem?_set_self hlt) hminds
  | settled role owner now =>
    rw [role] at hfits
    obtain ⟨-, hstate, -⟩ := hfits
    have hopen : w.controller.state.isOpen := by
      rw [now]
      exact .inl (hstate.resolve_right (Controller.owns_iff.mp owner).2)
    exact .active hopen (by rw [show (s.moved i call p w _).world = w from rfl, now]) rfl
  | removed removes still files =>
    refine .gone (h.steady.gone_of_removes here removes still ?_ step same)
    rw [files]
    exact FileSystem.gone_of_removeIfPossible stored.named plain
  | @recorded k outcome result r hp log =>
    subst hp
    rw [Point.role_of_withdraw (h.steady.serving i call _ here)] at hfits
    obtain rfl : k = g := hfits.1.symm.trans h.current
    have hnoted := ((balanced i call _ here).2.2.2 k path).mpr ⟨rfl, rfl⟩
    exact .kept ⟨i, mem_moved.mpr (.inr (mem_told.mp hnoted)), outcome,
      mem_moved.mpr (.inl ⟨rfl, log⟩)⟩

/-- Every step leaves the file minded. -/
theorem Minded.step {g : Nat} {path : String} (h : Minded g path s) (sole : Sole g s)
    (balanced : Balanced setup s) (keeps : around.KeepsNames setup) (stored : Stored setup path)
    (plain : s.world.files.isDirectory path = false) (step : Step setup around s t)
    (same : t.world.controller.generation = s.world.controller.generation) :
    Minded g path t := by
  cases h with
  | byCall here minds =>
    rcases step.fate here with ⟨w, st, goes, rfl⟩ | ⟨q, there, rfl | rfl | ⟨a, rfl⟩⟩
    · exact sole.minded_of_goes balanced here goes step same minds stored plain
    · exact .byCall there minds
    · exact .byCall there minds.wake
    · exact .byCall there (minds.resume a)
  | active open_ update delivery =>
    obtain hquiet | ⟨i, call, p, w, st, here, goes, rfl⟩ := step.quiet_or_goes
    · rw [← hquiet.controller] at open_ update
      exact .active open_ update delivery
    · rcases sole.active_on here goes same open_ update delivery with
        hminds | ⟨hopen, v, file, hv, hd⟩
      · cases st with
        | running q =>
          exact .byCall (i := i) (getElem?_set_here here)
            hminds
        | returned r => exact hminds.elim
      · exact .active hopen hv hd
  | gone gone => exact .gone (gone.step sole.traced.stays keeps stored step same)
  | kept kept =>
    obtain ⟨i, hinstalled, o, hrecorded⟩ := kept
    have hx := step.extends.history
    exact .kept ⟨i, hx _ hinstalled, o, hx _ hrecorded⟩

/-! ### What a call needs is there -/

/-- What a call at this point needs of the files. When an assembled package has yet to be told
apart from its manifest, the history has how the files were when it was assembled. -/
def Point.Finds (s : System σ) (i : Nat) : Point → Prop
  | .settling _ _ (.staged path _) => s.world.files.Stands path
  | .removingManifest g _ manifest (.ok package) =>
    s.world.files.Stands package ∧ s.world.files.Plain manifest ∧
      ∃ files, (i, .assembled g manifest package files) ∈ s.history ∧
        files.isLink package = s.world.files.isLink package ∧
          files.find manifest = s.world.files.find manifest ∧
            files.find package = s.world.files.find package
  | .checking _ _ package | .installing _ _ package _ | .installed _ _ package _
  | .concluding _ _ _ (.withdraw package) => s.world.files.Stands package
  | _ => True

lemma Point.Finds.mono {p : Point} {i : Nat} (h : p.Finds s i) (housed : p.Housed setup)
    (names : SameNames setup s.world.files t.world.files) (extends_ : s.Extends t) :
    p.Finds t i := by
  have hstands (path : String) (minds : p.Minds path) (stands : s.world.files.Stands path) :
      t.world.files.Stands path := names.stands (housed.minds path minds).inDownloads stands
  cases p with
  | settling g target delivery =>
    cases delivery with
    | staged path file => exact hstands path rfl h
    | streaming stream => trivial
  | removingManifest g target manifest result =>
    cases result with
    | error e => trivial
    | ok package =>
      obtain ⟨hstand, hplain, files, hlogged, hlink, hfind, hfind'⟩ := h
      have hmanifest := (housed.minds manifest (.inl rfl)).inDownloads
      have hpackage := (housed.minds package (.inr rfl)).inDownloads
      exact ⟨hstands package (.inr rfl) hstand, names.plain hmanifest hplain, files,
        extends_.history _ hlogged, hlink.trans (names.link _ hpackage).symm,
        hfind.trans (names.find _ hmanifest).symm, hfind'.trans (names.find _ hpackage).symm⟩
  | checking | installing | installed => exact hstands _ rfl h
  | concluding g outcome result otherwise =>
    cases otherwise with
    | refuse code => trivial
    | withdraw package => exact hstands package rfl h
  | _ => trivial

/-- A call on which the update does not rest needs nothing. -/
lemma Point.finds_of_not_holds {p : Point} {i : Nat} {call : Call} (serves : p.Serves call)
    (other : ¬ p.role.Holds) : p.Finds s i := by
  cases p with
  | settling | removingManifest | checking | installing | installed => exact absurd trivial other
  | concluding g outcome result otherwise =>
    cases otherwise with
    | refuse code => trivial
    | withdraw package =>
      refine absurd ?_ other
      simp [Point.role, Role.ofOutcome, serves.2 package rfl, Role.Holds]
  | _ => trivial

/-- The manifest of the update and its package are two files: they have different names, and the
name of the package is no link to the manifest. -/
def System.Distinct (s : System σ) (g : Nat) : Prop :=
  ∀ i manifest package files, (i, .assembled g manifest package files) ∈ s.history →
    manifest ≠ package ∧
      (files.isLink package = true → files.find package ≠ files.find manifest)

/-- A call that goes on finds what it needs from then on. -/
lemma Goes.finds {i : Nat} {call : Call} {p q : Point} {w : World}
    (h : Goes setup s.world p w (.running q)) (stays : p.Only Effect.Stays)
    (housed : p.Housed setup) (fits : p.role.Fits s.world.controller)
    (distinct : s.Distinct s.world.controller.generation)
    (chunks : ∀ u path file, s.world.controller.active = some u → u.delivery = .staged path file →
      s.world.controller.state.isOpen → s.world.files.Stands path)
    (finds : p.Finds s i) : q.Finds (s.moved i call p w (.running q)) i := by
  generalize hst : Status.running q = st at h ⊢
  cases h with
  | request h =>
    cases h with
    | refused code => cases hst
    | accepted known name free goes =>
      cases hst
      obtain ⟨-, rfl⟩ | rfl := goes <;> trivial
  | data h =>
    cases h with
    | failed code takes delivery kept =>
      cases hst
      trivial
    | @finished u path handle handle' files takes delivery write final synced =>
      have hstands : files.Stands path := (FileSystem.alike_of_write write).stands
        (chunks u path _ takes.active delivery takes.open_)
      generalize u.target = target at hst ⊢
      cases target with
      | system =>
        cases hst
        exact hstands
      | manifest =>
        cases hst
        trivial
    | pushed takes delivery =>
      cases hst
      trivial
    | _ => cases hst
  | cancel h =>
    cases h with
    | active | lateStream =>
      cases hst
      trivial
    | _ => cases hst
  | reset h =>
    cases h with
    | refused decision unscheduled => cases hst
    | begun done path =>
      generalize s.world.controller.outcome = outcome at path
      cases hst
      cases path <;> trivial
  | @inside α wrap rest rest' shared wraps h =>
    cases hst
    cases wraps with
    | installing =>
      have hfiles : shared.files = s.world.files := Procedure.Only.looks stays h
      show FileSystem.Stands shared.files _
      rw [hfiles]
      exact finds
    | _ => trivial
  | created create =>
    cases hst
    exact FileSystem.stands_of_create create
  | @assembled g target manifest result files assembles =>
    cases hst
    cases result with
    | error e => trivial
    | ok package =>
      obtain ⟨content, m, hcontent, -, -, bytes, hread, -⟩ :=
        Assembly.assembleFromManifest_fits assembles
      exact ⟨FileSystem.stands_iff_read.mpr ⟨bytes, hread⟩,
        Assembly.plain_of_assembleFromManifest assembles
          (FileSystem.stands_iff_read.mpr ⟨content, hcontent⟩),
        files, mem_moved.mpr (.inl ⟨rfl, rfl⟩), rfl, rfl, rfl⟩
  | @manifestRemoved g target manifest package =>
    cases hst
    obtain ⟨hstands, hplain, files, hlogged, hlink, hfind, hfind'⟩ := finds
    obtain ⟨hne, hapart⟩ := distinct _ _ _ _ (fits.1.symm ▸ hlogged)
    rw [hlink, hfind, hfind'] at hapart
    exact (housed manifest (.inl rfl)).stands_of_removed (housed package (.inr rfl)) hne hplain
      hapart hstands
  | handed owner | installDone | kept =>
    cases hst
    exact finds
  | _ =>
    cases hst
    all_goals trivial

/-- What the update needs is there, and so is the package that stays for the recovery system. -/
structure There (setup : Setup) (g : Nat) (s : System σ) : Prop where
  points : s.All fun i _ p => p.Finds s i
  active : ∀ u path file, s.world.controller.active = some u → u.delivery = .staged path file →
    s.world.controller.state.isOpen → s.world.files.Stands path
  kept : ∀ path, s.Keeps g path → Stored setup path ∧ s.world.files.Stands path

/-- A package stays from the step on that records the outcome of its update. -/
lemma Sole.keeps_back {g : Nat} (h : Sole g s) (balanced : Balanced setup s)
    (step : Step setup around s t) {path : String} (keeps : t.Keeps g path) :
    s.AtRest ∧ s.Keeps g path ∨ t.world.files = s.world.files ∧
      (∀ path', ¬ s.Keeps g path') ∧
        ∃ (i : Nat) (call : Call) (outcome : UpdateOutcome) (result : Except DataCode Unit),
          s.threads[i]? =
            some ⟨call, .running (.concluding g outcome result (.withdraw path))⟩ := by
  obtain ⟨i, hinstalled, o, hrecorded⟩ := keeps
  rcases step.logs hrecorded with hold | hnew
  · have hrest := (h.recorded o ⟨i, hold⟩).1
    refine .inl ⟨hrest, i, ?_, o, hold⟩
    rcases step.logs hinstalled with hmem | hnew
    · exact hmem
    · cases hnew with
      | told here goes tells now =>
        cases tells with
        | installed =>
          have hfits := h.steady.fits here
          exact absurd (Role.busy_of_holds (by trivial) hfits) hrest.idle
  · cases hnew with
    | told here goes tells now =>
      cases tells with
      | @recorded k outcome result otherwise current =>
        have hbusy := h.busy_of_concluding here
        have hfirst : ∀ path', ¬ s.Keeps g path' := by
          rintro path' ⟨j, -, o', hj⟩
          exact (h.recorded o' ⟨j, hj⟩).1.idle hbusy
        have hnoted : (i, .installed g path (.ok .single)) ∈ s.history := by
          rw [now] at hinstalled
          rcases mem_moved.mp hinstalled with ⟨-, hlog⟩ | hold
          · simp [Event.of?, current] at hlog
          · exact hold
        have hbalance := balanced i _ _ here
        cases otherwise with
        | refuse code => exact absurd (mem_told.mpr hnoted) (hbalance.noted g path)
        | withdraw package =>
          obtain ⟨-, rfl⟩ := (hbalance.2.2.2 g path).mp (mem_told.mpr hnoted)
          exact .inr ⟨by rw [now]; rfl, hfirst, i, _, o, result, here⟩

/-- Only one package stays. -/
def KeepsOne (g : Nat) (s : System σ) : Prop :=
  ∀ path path', s.Keeps g path → s.Keeps g path' → path = path'

/-- Every step leaves one package that stays at most. -/
lemma KeepsOne.step {g : Nat} (h : KeepsOne g s) (sole : Sole g s) (balanced : Balanced setup s)
    (step : Step setup around s t) : KeepsOne g t := by
  intro path path' keeps keeps'
  rcases sole.keeps_back balanced step keeps with
    ⟨-, hkeeps⟩ | ⟨-, hfirst, i, call, o, result, here⟩
  · rcases sole.keeps_back balanced step keeps' with ⟨-, hkeeps'⟩ | ⟨-, hfirst, -⟩
    · exact h path path' hkeeps hkeeps'
    · exact absurd hkeeps (hfirst path)
  · rcases sole.keeps_back balanced step keeps' with
      ⟨-, hkeeps'⟩ | ⟨-, -, j, call', o', result', there⟩
    · exact absurd hkeeps' (hfirst path')
    · have hij : i = j := by
        by_contra hne
        have hapart := sole.steady.owned.apart i j hne
        rw [role_of_getElem? here, role_of_getElem? there, Status.role, Status.role,
          Point.role_of_withdraw (sole.steady.serving i call _ here),
          Point.role_of_withdraw (sole.steady.serving j call' _ there)] at hapart
        exact hapart trivial
      subst hij
      rw [here] at there
      exact (by simpa using there : call = call' ∧ o = o' ∧ result = result' ∧ path = path').2.2.2

/-- Every call still finds what it needs after a step. -/
lemma There.points_step {g : Nat} (h : There setup g s) (sole : Sole g s)
    (housed : s.Housed setup) (names : around.KeepsNames setup) (distinct : s.Distinct g)
    (step : Step setup around s t) : t.All fun i _ p => p.Finds t i := by
  have hsteady := sole.steady
  refine h.points.step step ?_ (fun _ _ => trivial) ?_ ?_ ?_
  · intro i call p here beside hp
    have hhoused := housed.points i call p here
    by_cases hholds : p.role.Holds
    · refine hp.mono hhoused ?_ step.extends
      cases beside with
      | quiet hquiet => exact hquiet.names names
      | other ne there goes => exact .of_eq (hsteady.files_of_goes here hholds ne there goes)
    · exact Point.finds_of_not_holds (hsteady.serving i call p here) hholds
  · rintro i call p w q here goes rfl hp
    exact goes.finds (hsteady.stays i call p here) (housed.points i call p here)
      (hsteady.fits here) (sole.current.symm ▸ distinct) h.active hp
  · intro i call p a hp
    cases p with
    | starting g target stream request => cases a <;> trivial
    | _ => exact hp
  · intro i call p hp
    cases p <;> exact hp

/-- A call that settles its delivery leaves the files as they are. -/
lemma Goes.files_of_settling {w w' : World} {st : Status} {g : Nat} {target : Target}
    {delivery : Delivery} (h : Goes setup w (.settling g target delivery) w' st) :
    w'.files = w.files := by
  generalize hp : Point.settling g target delivery = p at h
  cases h with
  | settled owner | lost lost => rfl
  | inside wraps h => cases wraps <;> cases hp
  | _ => cases hp

/-- The file of the active update still stands after a step. -/
lemma There.active_step {g : Nat} (h : There setup g s) (sole : Sole g s)
    (housed : s.Housed setup) (names : around.KeepsNames setup) (step : Step setup around s t)
    (same : t.world.controller.generation = s.world.controller.generation) {u : ActiveUpdate}
    {path : String} {file : Option Handle} (update : t.world.controller.active = some u)
    (delivery : u.delivery = .staged path file) (open_ : t.world.controller.state.isOpen) :
    t.world.files.Stands path := by
  have hsteady := sole.steady
  have hopen : s.world.controller.state.isOpen := by
    by_contra hclosed
    exact closed_step hclosed step same open_
  obtain hquiet | ⟨i, call, p, w, st, here, goes, rfl⟩ := step.quiet_or_goes
  · rw [hquiet.controller] at update
    exact (hquiet.names names).stands (housed.active u path file update delivery).inDownloads
      (h.active u path file update delivery hopen)
  show w.files.Stands path
  obtain ⟨-, ⟨v, hv, -, hclosed⟩ | ⟨k, rfl, owner⟩⟩ := goes.active_back update
  · obtain ⟨file', hfile⟩ := Delivery.staged_of_closed hclosed delivery
    have hstands := h.active v path file' hv hfile hopen
    rcases goes.edits (hsteady.stays i call p here) with hsame | hedits | ⟨hcleans, hfree⟩
    · rwa [hsame]
    · obtain ⟨call', hrole⟩ := Role.sends_of_edits hedits (hsteady.fits here) hopen
        (by rw [hv]; rfl)
      obtain ⟨number, offset, chunk, last, rfl⟩ := Point.data_of_edits hrole hedits
      exact goes.dataStep.alike.stands hstands
    · exact absurd (.inl hopen) (hsteady.clear i call p here hcleans hfree)
  · -- the request that opened the file makes its delivery known
    have hfinds := h.points i call _ here
    rw [delivery] at hfinds
    rw [goes.files_of_settling]
    exact hfinds

/-- What is to stay still stands after a step. -/
lemma There.kept_step {g : Nat} (h : There setup g s) (sole : Sole g s)
    (balanced : Balanced setup s) (housed : s.Housed setup) (names : around.KeepsNames setup)
    (step : Step setup around s t) {path : String} (keeps : t.Keeps g path) :
    Stored setup path ∧ t.world.files.Stands path := by
  rcases sole.keeps_back balanced step keeps with
    ⟨hrest, hkeeps⟩ | ⟨hfiles, -, i, call, o, result, here⟩
  · obtain ⟨hstored, hstands⟩ := h.kept path hkeeps
    refine ⟨hstored, ?_⟩
    obtain hquiet | ⟨i, call, p, w, st, here, goes, rfl⟩ := step.quiet_or_goes
    · exact (hquiet.names names).stands hstored.inDownloads hstands
    · show w.files.Stands path
      rwa [hrest.files_of_goes sole.steady here goes]
  · rw [hfiles]
    exact ⟨(housed.points i call _ here).minds path rfl, h.points i call _ here⟩

/-- Every step leaves what is needed there. -/
theorem There.step {g : Nat} (h : There setup g s) (sole : Sole g s) (balanced : Balanced setup s)
    (housed : s.Housed setup) (names : around.KeepsNames setup) (distinct : s.Distinct g)
    (step : Step setup around s t)
    (same : t.world.controller.generation = s.world.controller.generation) :
    There setup g t :=
  ⟨h.points_step sole housed names distinct step,
    fun _ _ _ update delivery open_ =>
      h.active_step sole housed names step same update delivery open_,
    fun _ keeps => h.kept_step sole balanced housed names step keeps⟩

/-! ### From the step that makes a file to the end of the update -/

/-- The update opens the file in this step, for its download or for the package of its manifest.
That makes the file, or empties it. -/
inductive System.Makes (setup : Setup) (s t : System σ) (g : Nat) (path : String) : Prop
  | download {i : Nat} {call : Call} {target : Target}
      (moves : s.Moves setup t i call (.creating g target path))
      (opens : (s.world.files.create path).isOk) : System.Makes setup s t g path
  | package {i : Nat} {call : Call} {target : Target} {manifest : String} {plan : AssemblyPlan}
      (moves : s.Moves setup t i call (.assembling g target manifest))
      (plans : Assembly.planFor s.world.files manifest setup.config.downloadDirectory = .ok plan)
      (destination : plan.destination = path) (opens : (s.world.files.create path).isOk) :
      System.Makes setup s t g path

/-- All calls of the update have returned, it takes no more data, and no other one was accepted. -/
structure System.Over (s : System σ) (g : Nat) : Prop where
  current : s.world.controller.generation = g
  closed : ¬ s.world.controller.state.isOpen
  returned : ∀ i, s.WorksFor i g → ¬ s.Running i

/-- The update has the controller to itself, and its calls are known. -/
structure Watched (setup : Setup) (g : Nat) (s : System σ) : Prop where
  sole : Sole g s
  balanced : Balanced setup s
  housed : s.Housed setup

variable {g : Nat} {path : String}

lemma Watched.step (h : Watched setup g s) (step : Step setup around s t)
    (same : t.world.controller.generation = s.world.controller.generation)
    (unstreamed : ¬ t.Streamed g) : Watched setup g t :=
  ⟨h.sole.step step same unstreamed, h.balanced.step h.sole.traced.made step, h.housed.step step⟩

lemma Run.generation_le (run : Run setup around s t) :
    s.world.controller.generation ≤ t.world.controller.generation :=
  run.keeps (P := fun u => s.world.controller.generation ≤ u.world.controller.generation)
    (Nat.le_refl _) fun hu step => Nat.le_trans hu step.generation_le

/-- What the steps of an update keep holds until the next one is accepted. -/
theorem Watched.keeps {P : System σ → Prop} (h : Watched setup g s) (run : Run setup around s t)
    (now : t.world.controller.generation = g) (unstreamed : ¬ t.Streamed g) (start : P s)
    (step : ∀ {u v}, Watched setup g u → P u → Step setup around u v → Watched setup g v →
      Run setup around v t → P v) : Watched setup g t ∧ P t := by
  refine run.keeps_within (P := fun u => Watched setup g u ∧ P u) ⟨h, start⟩ ?_
  rintro u v - ⟨hu, hp⟩ hstep hrun
  have hle := hstep.generation_le
  have hle' := hrun.generation_le
  have hcurrent := hu.sole.current
  have hv : Watched setup g v := by
    refine hu.step hstep (by omega) ?_
    rintro ⟨stream, hopened⟩
    exact unstreamed ⟨stream, (Run.extends hrun).opened hopened⟩
  exact ⟨hv, step hu hp hstep hv hrun⟩

/-- So it does at every moment in between. -/
lemma Watched.within (h : Watched setup g s) {u : System σ} (run : Run setup around s u)
    (rest : Run setup around u t) (now : t.world.controller.generation = g)
    (unstreamed : ¬ t.Streamed g) : Watched setup g u := by
  have hcurrent := h.sole.current
  have hle := run.generation_le
  have hle' := rest.generation_le
  refine (h.keeps run (by omega) ?_ trivial fun _ _ _ _ _ => trivial).1
  rintro ⟨stream, hopened⟩
  exact unstreamed ⟨stream, (Run.extends rest).opened hopened⟩

/-- A file is minded from the step on that makes it. -/
lemma System.Makes.minded (h : s.Makes setup t g path) (watched : Watched setup g s)
    (step : Step setup around s t)
    (same : t.world.controller.generation = s.world.controller.generation) :
    Stored setup path ∧ t.world.files.isDirectory path = false ∧ Minded g path t := by
  cases h with
  | @download i call target moves opens =>
    obtain ⟨here, w, st, hmove, rfl⟩ := moves
    have hlt := (List.getElem?_eq_some_iff.mp here).1
    cases hcreate : s.world.files.create path with
    | error e => simp [hcreate, Except.isOk, Except.toBool] at opens
    | ok created =>
      obtain ⟨handle, files⟩ := created
      obtain ⟨rfl, rfl⟩ : s.world.setFiles files = w ∧
          .running (.settling g target (.staged path (some handle))) = st := by
        simpa [Point.move, hcreate] using hmove
      exact ⟨watched.housed.points i call _ here, (FileSystem.stands_of_create hcreate).2,
        .byCall (i := i) (List.getElem?_set_self hlt) rfl⟩
  | @package i call target manifest plan moves plans destination opens =>
    subst destination
    obtain ⟨here, w, st, hmove, rfl⟩ := moves
    have hlt := (List.getElem?_eq_some_iff.mp here).1
    obtain ⟨content, m, hdescribes, hdestination⟩ := Assembly.destination_of_planFor plans
    have hstored : Stored setup plan.destination := hdestination ▸ stored_of_describes hdescribes
    have hassembles : setup.assemble s.world.files manifest =
        @Assembly.assemble setup.archives s.world.files plan := by
      simp [Setup.assemble, Assembly.assembleFromManifest, plans]
    cases hcreate : s.world.files.create plan.destination with
    | error e => simp [hcreate, Except.isOk, Except.toBool] at opens
    | ok created =>
      obtain ⟨handle, files⟩ := created
      cases hresult : @Assembly.assemble setup.archives s.world.files plan with
      | mk result files' =>
        obtain ⟨rfl, rfl⟩ : s.world.setFiles files' = w ∧
            .running (.removingManifest g target manifest result) = st := by
          simp only [Point.move, hassembles, hresult] at hmove
          split at hmove
          · cases hmove
          · simpa using hmove
        rcases Assembly.assemble_leaves hstored.named hcreate hresult with
          ⟨⟨e, rfl⟩, hgone⟩ | rfl
        · refine ⟨hstored, FileSystem.not_directory_of_gone hgone,
            .gone (watched.sole.steady.gone_of_removes here (.inr (.inl ⟨g, _, rfl⟩)) ?_ hgone step
              same)⟩
          rintro q hq
          cases hq
          rintro ⟨k, ⟨⟩⟩
        · have hread := Assembly.assembleFromManifest_fits (hassembles.trans hresult)
          obtain ⟨-, -, -, -, -, bytes, hread, -⟩ := hread
          exact ⟨hstored, (FileSystem.stands_iff_read.mpr ⟨bytes, hread⟩).2,
            .byCall (i := i) (List.getElem?_set_self hlt) (.inr rfl)⟩

/-- A call that minds a file turns to no stream. -/
lemma Point.Minds.not_streaming {p : Point} {call : Call} (h : p.Minds path)
    (serves : p.Serves call) : ¬ p.Streaming := by
  cases p with
  | stopping => exact h.elim
  | concluding g outcome result otherwise =>
    cases otherwise with
    | refuse code => exact h.elim
    | withdraw package => exact (congrArg Role.streams (Point.role_of_withdraw serves)).mp
  | pushing | pushFailed | judging => exact h.elim
  | _ => exact id

/-- When the update is over, a file that was minded is gone, or is the package that stays. -/
lemma Minded.over (h : Minded g path s) (sole : Sole g s) (ended : s.Over g)
    (exists_ : s.world.files.exists? path = true) : s.Keeps g path := by
  cases h with
  | byCall here minds =>
    have hstreamless := minds.not_streaming (sole.steady.serving _ _ _ here)
    exact absurd ⟨_, here, rfl⟩
      (ended.returned _ (sole.worksFor here minds.not_entering hstreamless))
  | active open_ => exact absurd open_ ended.closed
  | gone gone =>
    rw [gone.gone] at exists_
    cases exists_
  | kept keeps => exact keeps

/-- A file that the update made is gone when it is over, or is the package that stays. -/
theorem System.Makes.over {u : System σ} (h : s.Makes setup t g path) (watched : Watched setup g s)
    (step : Step setup around s t) (after : Watched setup g t) (run : Run setup around t u)
    (names : around.KeepsNames setup) (unstreamed : ¬ u.Streamed g) (ended : u.Over g)
    (exists_ : u.world.files.exists? path = true) : u.Keeps g path := by
  obtain ⟨hstored, hplain, hminded⟩ := h.minded watched step
    (after.sole.current.trans watched.sole.current.symm)
  obtain ⟨hlast, hminded, -⟩ := after.keeps
    (P := fun x => Minded g path x ∧ x.world.files.isDirectory path = false) run ended.current
    unstreamed ⟨hminded, hplain⟩ fun hx ⟨hminded, hplain⟩ step hy _ =>
      ⟨hminded.step hx.sole hx.balanced names hstored hplain step
        (hy.sole.current.trans hx.sole.current.symm),
        plain_step hplain hx.sole.traced.stays names hstored step⟩
  exact hminded.over hlast.sole ended exists_

/-- The package that stays is there. -/
theorem Watched.stands_of_over (h : Watched setup g s) (run : Run setup around s t)
    (names : around.KeepsNames setup) (unstreamed : ¬ t.Streamed g) (ended : t.Over g)
    (there : There setup g s) (distinct : t.Distinct g) (keeps : t.Keeps g path) :
    t.world.files.Stands path := by
  obtain ⟨-, hthere⟩ := h.keeps (P := There setup g) run ended.current unstreamed there
    fun hx hthere step hy hrest => hthere.step hx.sole hx.balanced hx.housed names
      (fun i manifest package files hlogged => distinct i manifest package files
        ((Run.extends (.head step hrest)).history _ hlogged)) step
      (hy.sole.current.trans hx.sole.current.symm)
  exact (hthere.kept path keeps).2

end Session

end DeviceUpdate
