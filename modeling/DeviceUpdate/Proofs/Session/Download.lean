import DeviceUpdate.Proofs.Session.Exclusive
import DeviceUpdate.Proofs.Session.Grounds
import DeviceUpdate.Proofs.Session.Handover

/-!
# What a download holds

The file that was opened for a staged update holds the chunks that were accepted, in order and
without a gap, and the update counts its bytes. This needs no discipline of the senders: chunks may
come twice, out of order, from several threads and for other targets, as long as nobody else writes
the file.
-/

namespace DeviceUpdate.Session

section

variable {σ : Type} {setup : Setup} {around : Surroundings σ} {s t : System σ}

/-! ### After the final chunk -/

/-- The update takes no chunks any more. -/
structure Shut (g : Nat) (s : System σ) : Prop where
  known : g ≤ s.world.controller.generation
  closed : s.world.controller.generation = g → ¬ s.world.controller.state.isOpen

lemma Shut.step {g : Nat} (h : Shut g s) (step : Step setup around s t) : Shut g t := by
  obtain ⟨call, -, hc, -⟩ | ⟨i, r, hc, -⟩ := step.control
  · exact ⟨hc ▸ h.known, hc ▸ h.closed⟩
  · have hgen := hc.generation_cases
    have hknown := h.known
    refine ⟨by omega, fun hg => ?_⟩
    exact hc.stays_closed (h.closed (by omega)) (by omega)

/-- The final chunk shuts its update. -/
lemma Goes.shut {i g : Nat} {call : Call} {p : Point} {w : World} {st : Status} {chunk : Bytes}
    (goes : Goes setup s.world p w st)
    (log : Event.of? s.world p w st = some (.received g chunk true)) :
    Shut g (s.moved i call p w st) := by
  have htells := goes.tells log
  cases htells with
  | received h fine =>
    cases h with
    | refused code => simp [Event.of?] at log
    | failed code takes delivery kept => exact absurd rfl (fine _ _)
    | written takes delivery write more => cases more
    | finished takes delivery write final synced =>
      exact ⟨Nat.le_refl _, fun _ => by simp [System.moved, SessionState.isOpen]⟩
    | pushed takes delivery =>
      exact ⟨Nat.le_refl _, fun _ => by simp [System.moved, SessionState.isOpen]⟩

/-- An update that got its final chunk is shut. -/
def Ends (s : System σ) : Prop := ∀ g chunk, s.Logged (.received g chunk true) → Shut g s

theorem Ends.step (h : Ends s) (step : Step setup around s t) : Ends t := by
  intro g chunk logged
  obtain hquiet | ⟨i, call, p, w, st, here, goes, rfl⟩ := step.quiet_or_goes
  · exact (h g chunk (hquiet.logged logged (by simp))).step step
  · obtain ⟨k, hk⟩ := logged
    rcases mem_moved.mp hk with ⟨-, hnew⟩ | hold
    · exact goes.shut hnew
    · exact (h g chunk ⟨k, hold⟩).step step

/-- What came for the update, call by call, last first. -/
def System.arrivals (s : System σ) (generation : Nat) : List Bytes :=
  s.history.filterMap (·.2.chunkOf? generation)

/-- Nothing comes any more for an update that is shut. -/
lemma Shut.arrivals_eq {g : Nat} (h : Shut g s) (step : Step setup around s t) :
    t.arrivals g = s.arrivals g := by
  obtain hquiet | ⟨i, call, p, w, st, here, goes, rfl⟩ := step.quiet_or_goes
  · rcases hquiet.history with hsame | ⟨i, f, a, hnew⟩
    · rw [System.arrivals, hsame, System.arrivals]
    · rw [System.arrivals, hnew, System.arrivals]
      rfl
  · cases hlog : Event.of? s.world p w st with
    | none => simp [System.arrivals, System.moved, hlog]
    | some e =>
      have hnone : e.chunkOf? g = none := by
        cases e with
        | received g' chunk last =>
          obtain ⟨rfl, number, offset, u, -, takes⟩ := goes.takes_of_received hlog
          refine if_neg fun hg => ?_
          exact h.closed hg takes.open_
        | _ => rfl
      simp [System.arrivals, System.moved, hlog, hnone]

lemma Shut.arrivals_run {g : Nat} (h : Shut g s) (run : Run setup around s t) :
    t.arrivals g = s.arrivals g := by
  have hkept : Shut g t ∧ t.arrivals g = s.arrivals g :=
    run.keeps (P := fun u => Shut g u ∧ u.arrivals g = s.arrivals g) ⟨h, rfl⟩
      fun hu step => ⟨hu.1.step step, (hu.1.arrivals_eq step).trans hu.2⟩
  exact hkept.2

/-! ### While chunks come -/

/-- While the update takes data, the step is the first one of a data call, or it leaves the node
alone. -/
def Undisturbed (setup : Setup) (g n : Nat) (s t : System σ) : Prop :=
  t.world.controller.generation = g → t.world.controller.state.isOpen →
    (∃ i number offset chunk last, s.Moves setup t i (.data number offset chunk last)
      (.entry (.data number offset chunk last))) ∨
    t.world.files.node? n = s.world.files.node? n

/-- Any number of steps in which nobody but data calls writes the node while the update takes
data. -/
abbrev UndisturbedRun (setup : Setup) (around : Surroundings σ) (g n : Nat) :
    System σ → System σ → Prop :=
  Relation.ReflTransGen fun s t => Step setup around s t ∧ Undisturbed setup g n s t

/-- The node `n` was opened for the staged update `g`, and gathers its chunks. -/
structure Gapless (g : Nat) (target : Target) (path : String) (n : Nat) (s : System σ) :
    Prop where
  opening : s.All fun _ _ p => p.role = .setup g →
    p = .settling g target (.staged path (some ⟨n, 0⟩))
  names : ∀ u, s.world.controller.active = some u → u.target = target
  counts : s.world.controller.state.isOpen → ∀ u, s.world.controller.active = some u →
    u = ⟨target, (s.chunks g).length, .staged path (some ⟨n, (s.chunks g).length⟩)⟩
  holds : s.world.controller.state.isOpen →
    ∃ x, s.world.files.node? n = some (.file (s.chunks g) x)

/-- A call that brings no chunk leaves an update that takes data alone, or settles its delivery. -/
lemma Goes.open_back {w w' : World} {p : Point} {st : Status} (h : Goes setup w p w' st)
    (other : ∀ number offset chunk last, p ≠ .entry (.data number offset chunk last))
    (same : w'.controller.generation = w.controller.generation)
    (open_ : w'.controller.state.isOpen) : w'.controller = w.controller ∨
      ∃ g target delivery, p = .settling g target delivery ∧ w.controller.owns g ∧
        w'.controller = { w.controller with active := some ⟨target, 0, delivery⟩ } := by
  cases h with
  | request h =>
    cases h with
    | refused code => exact .inl rfl
    | accepted known name free goes => simp [Controller.startUpdate] at same
  | data h => exact absurd rfl (other _ _ _ _)
  | cancel h =>
    cases h with
    | ignored => exact .inl rfl
    | _ => simp [SessionState.isOpen] at open_
  | reset h =>
    cases h with
    | refused decision unscheduled => exact .inl rfl
    | begun done path => simp [SessionState.isOpen] at open_
  | settled owner => exact .inr ⟨_, _, _, rfl, owner, rfl⟩
  | @setupFailed g code =>
    rcases w.controller.releaseIfCurrent_cases g with heq | heq <;> dsimp only at open_ ⊢
    · exact .inl heq
    · simp [heq, Controller.release, SessionState.isOpen] at open_
  | @released g reply =>
    rcases w.controller.releaseIfCurrent_cases g with heq | heq <;> dsimp only at open_ ⊢
    · exact .inl heq
    · simp [heq, Controller.release, SessionState.isOpen] at open_
  | pushFailed =>
    dsimp only at open_ ⊢
    split at open_
    · simp [Controller.release, SessionState.isOpen] at open_
    · exact .inl (if_neg ‹_›)
  | handed owner => simp [SessionState.isOpen] at open_
  | @recorded g outcome result otherwise current =>
    have hdone := (Controller.conclude_eq current).2
    simp [hdone, SessionState.isOpen] at open_
  | givenUp lost | takenBack lost =>
    obtain ⟨heq, -⟩ | ⟨-, heq⟩ := Controller.conclude_lost lost
    · exact .inl heq
    · simp [heq, Controller.release, SessionState.isOpen] at open_
  | @resetDone scheduled => cases scheduled <;> simp [SessionState.isOpen] at open_
  | _ => exact .inl rfl

variable {g n : Nat} {target : Target} {path : String}

/-- What a data call leaves of a download. -/
lemma Gapless.data (h : Gapless g target path n s) (current : s.world.controller.generation = g)
    {i number offset : Nat} {call : Call} {chunk : Bytes} {last : Bool} {w : World} {st : Status}
    (step : DataStep s.world number offset chunk last w st)
    (opening : (s.moved i call (.entry (.data number offset chunk last)) w st).All fun _ _ p =>
      p.role = .setup g → p = .settling g target (.staged path (some ⟨n, 0⟩))) :
    Gapless g target path n (s.moved i call (.entry (.data number offset chunk last)) w st) := by
  have hworld : (s.moved i call (.entry (.data number offset chunk last)) w st).world = w := rfl
  have hchunks : (s.moved i call (.entry (.data number offset chunk last)) w st).chunks g =
      s.chunks g ++ ((Event.of? s.world (.entry (.data number offset chunk last)) w st).bind
        (·.chunkOf? g)).getD [] := chunks_moved
  generalize s.moved i call (.entry (.data number offset chunk last)) w st = t
    at opening hworld hchunks ⊢
  cases step with
  | refused code =>
    have hsame : t.chunks g = s.chunks g := by simpa [Event.of?] using hchunks
    exact ⟨opening, by rw [hworld]; exact h.names, by rw [hworld, hsame]; exact h.counts,
      by rw [hworld, hsame]; exact h.holds⟩
  | failed code takes delivery kept =>
    exact ⟨opening, by simp [hworld, Controller.release], by simp [hworld, Controller.release],
      by simp [hworld, Controller.release, SessionState.isOpen]⟩
  | @written u path' handle handle' files takes delivery write more =>
    obtain ⟨x, hnode⟩ := h.holds takes.open_
    obtain rfl := h.counts takes.open_ u takes.active
    obtain ⟨rfl, rfl⟩ : path = path' ∧ ⟨n, (s.chunks g).length⟩ = handle := by simpa using delivery
    obtain ⟨rfl, hafter⟩ := FileSystem.write_end hnode write
    replace hchunks : t.chunks g = s.chunks g ++ chunk := by
      simpa [Event.of?, Event.chunkOf?, current] using hchunks
    refine ⟨opening, ?_, ?_, ?_⟩
    · rw [hworld]
      rintro u ⟨rfl⟩
      rfl
    · rw [hworld, hchunks]
      rintro - u ⟨rfl⟩
      simp [ActiveUpdate.grown]
    · rw [hworld, hchunks]
      exact fun _ => ⟨x, hafter⟩
  | @finished u path' handle handle' files takes delivery write final synced =>
    refine ⟨opening, ?_, ?_, ?_⟩
    · rw [hworld]
      rintro v ⟨rfl⟩
      exact h.names u takes.active
    · simp [hworld, SessionState.isOpen]
    · simp [hworld, SessionState.isOpen]
  | @pushed u stream takes delivery =>
    obtain rfl := h.counts takes.open_ u takes.active
    simp at delivery

/-- The call that opens the delivery stays where it is until it settles it. -/
lemma Gapless.opening_step (h : Gapless g target path n s)
    (same : s.world.controller.generation = g) (step : Step setup around s t) :
    t.All fun _ _ p => p.role = .setup g →
      p = .settling g target (.staged path (some ⟨n, 0⟩)) := by
  refine h.opening.step step (fun _ _ _ _ _ hp => hp) (fun call _ role => by cases role) ?_ ?_ ?_
  · rintro i call p w p' here goes rfl hp role
    rcases goes.setup_back role with ⟨hrole, -⟩ | ⟨hnext, -⟩
    · obtain rfl := hp hrole
      generalize hq : Point.settling g target _ = q at goes
      cases goes with
      | lost lost => cases role
      | inside wraps h => cases wraps <;> cases hq
      | _ => cases hq
    · omega
  · intro i call p a hp role
    rw [resume_role] at role
    rw [hp role]
    rfl
  · intro i call p hp role
    rw [wake_role] at role
    rw [hp role]
    rfl

/-- What a call that brings no chunk leaves of a download. -/
lemma Gapless.goes (h : Gapless g target path n s) (founded : Founded s)
    (current : s.world.controller.generation = g) {i : Nat} {call : Call} {p : Point} {w : World}
    {st : Status} (here : s.threads[i]? = some ⟨call, .running p⟩)
    (goes : Goes setup s.world p w st) (same : w.controller.generation = g)
    (other : ∀ number offset chunk last, p ≠ .entry (.data number offset chunk last))
    (node : w.controller.state.isOpen → w.files.node? n = s.world.files.node? n)
    (opening : (s.moved i call p w st).All fun _ _ p =>
      p.role = .setup g → p = .settling g target (.staged path (some ⟨n, 0⟩))) :
    Gapless g target path n (s.moved i call p w st) := by
  have hchunks : (s.moved i call p w st).chunks g = s.chunks g := by
    rw [chunks_moved]
    cases hlog : Event.of? s.world p w st with
    | none => simp
    | some e =>
      cases goes.tells hlog with
      | received h fine => exact absurd rfl (other _ _ _ _)
      | _ => simp [Event.chunkOf?]
  have hworld : (s.moved i call p w st).world = w := rfl
  generalize s.moved i call p w st = t at opening hchunks hworld ⊢
  refine ⟨opening, ?_, ?_, ?_⟩
  · rw [hworld]
    intro u hu
    obtain ⟨-, ⟨v, hv, htarget, -⟩ | ⟨g', rfl, owner⟩⟩ := goes.active_back hu
    · rw [← htarget]
      exact h.names v hv
    · obtain rfl : g' = g := (Controller.owns_iff.mp owner).1.symm.trans current
      exact (Point.settling.inj (h.opening i call _ here rfl)).2.1
  · rw [hworld, hchunks]
    intro hopen u hu
    rcases goes.open_back other (same.trans current.symm) hopen with
      hsame | ⟨g', target', delivery, rfl, owner, hsettled⟩
    · rw [hsame] at hopen hu
      exact h.counts hopen u hu
    · obtain rfl : g' = g := (Controller.owns_iff.mp owner).1.symm.trans current
      obtain ⟨-, rfl, rfl⟩ := Point.settling.inj (h.opening i call _ here rfl)
      have hnil : s.chunks g' = [] :=
        chunks_eq_nil (founded.opening i call _ here g' rfl).empty
      rw [hsettled] at hu
      obtain rfl := Option.some.inj hu
      simp [hnil]
  · rw [hworld, hchunks]
    intro hopen
    rw [node hopen]
    refine h.holds ?_
    rcases goes.open_back other (same.trans current.symm) hopen with
      hsame | ⟨g', target', delivery, rfl, owner, hsettled⟩
    · rwa [hsame] at hopen
    · rwa [hsettled] at hopen

/-- What a step leaves of a download. -/
theorem Gapless.step (h : Gapless g target path n s) (founded : Founded s)
    (known : g ≤ s.world.controller.generation) (current : t.world.controller.generation = g)
    (step : Step setup around s t) (undisturbed : Undisturbed setup g n s t) :
    Gapless g target path n t := by
  have hgeneration : s.world.controller.generation = g := by
    have := step.generation_le
    omega
  have hopening := h.opening_step hgeneration step
  by_cases hdata : ∃ i number offset chunk last, s.Moves setup t i
      (.data number offset chunk last) (.entry (.data number offset chunk last))
  · obtain ⟨i, number, offset, chunk, last, -, w, st, goes, rfl⟩ := hdata
    exact h.data hgeneration (dataStep_of_result goes) hopening
  have hnode (hopen : t.world.controller.state.isOpen) :
      t.world.files.node? n = s.world.files.node? n :=
    (undisturbed current hopen).resolve_left hdata
  obtain hquiet | ⟨i, call, p, w, st, here, goes, rfl⟩ := step.quiet_or_goes
  · have hchunks := hquiet.chunks_eq g
    refine ⟨hopening, by rw [hquiet.controller]; exact h.names,
      by rw [hquiet.controller, hchunks]; exact h.counts, fun hopen => ?_⟩
    rw [hchunks, hnode hopen]
    exact h.holds (hquiet.controller ▸ hopen)
  · by_cases hother : ∀ number offset chunk last, p ≠ .entry (.data number offset chunk last)
    · exact h.goes founded hgeneration here goes current hother hnode hopening
    · simp only [not_forall, ne_eq, Classical.not_not] at hother
      obtain ⟨number, offset, chunk, last, rfl⟩ := hother
      exact h.data hgeneration goes.dataStep hopening

/-! ### Nobody else writes -/

/-- A call that has no business with the controller any more does nothing to files but to remove
one. -/
lemma Goes.files_of_free {w w' : World} {p : Point} {st : Status} (h : Goes setup w p w' st)
    (stays : p.Only Effect.Stays) (free : p.role = .free) :
    w'.files = w.files ∨ ∃ path, w'.files = w.files.removeIfPossible path := by
  cases h with
  | request h | data h | cancel h | reset h | bootLayout => cases free
  | inside wraps h =>
    left
    cases wraps <;> exact Procedure.Only.looks stays h
  | removed => exact .inr ⟨_, rfl⟩
  | _ => first | exact .inl rfl | cases free

/-- While the update takes data, and rests on one call at most, no other call writes its file. -/
lemma Gapless.node_eq (h : Gapless g target path n s) (current : s.world.controller.generation = g)
    (open_ : s.world.controller.state.isOpen) (owned : Owned s.world.controller s.role) {i : Nat}
    {call : Call} {p : Point} {w : World} {st : Status}
    (here : s.threads[i]? = some ⟨call, .running p⟩) (goes : Goes setup s.world p w st)
    (stays : p.Only Effect.Stays)
    (other : ∀ number offset chunk last, p ≠ .entry (.data number offset chunk last)) :
    w.files.node? n = s.world.files.node? n := by
  obtain ⟨x, hnode⟩ := h.holds open_
  have hfits := owned.fits_here here
  rcases goes.edits stays with hsame | hedits | ⟨-, hfree⟩
  · rw [hsame]
  · cases hrole : p.role with
    | setup g' =>
      rw [hrole] at hfits
      obtain rfl : g' = g := hfits.1.symm.trans current
      obtain rfl := h.opening i call p here hrole
      have hfiles : w.files = s.world.files := by
        generalize hq : Point.settling g' target _ = q at goes
        cases goes with
        | settled owner => rfl
        | lost lost => rfl
        | inside wraps h => cases wraps <;> cases hq
        | _ => cases hq
      rw [hfiles]
    | entering call' =>
      obtain ⟨number, offset, chunk, last, rfl⟩ := Point.data_of_edits hrole hedits
      exact absurd rfl (other number offset chunk last)
    | undo g' => grind [Role.Fits, SessionState.isOpen]
    | staged g' stage =>
      cases stage <;> grind [Role.Fits, Stage.covers, SessionState.isOpen]
    | _ => simp [hrole, Role.Edits] at hedits
  · obtain hsame | ⟨path', hremoved⟩ := goes.files_of_free stays hfree
    · rw [hsame]
    · rw [hremoved, FileSystem.node?_removeIfPossible hnode]

/-- If chunks come one after another, or nobody resets, only what surrounds the controller can
disturb a download. -/
lemma Gapless.undisturbed (h : s.world.controller.generation = g → Gapless g target path n s)
    (known : g ≤ s.world.controller.generation) (owned : Owned s.world.controller s.role)
    (serving : s.Serving) (stays : s.Stays) (keeps : around.KeepsFiles)
    (step : Step setup around s t) : Undisturbed setup g n s t := by
  intro current hopen
  have hgeneration : s.world.controller.generation = g := by
    have := step.generation_le
    omega
  replace h := h hgeneration
  cases step with
  | @move i call p w st here goes =>
    by_cases hdata : ∃ number offset chunk last, p = .entry (.data number offset chunk last)
    · obtain ⟨number, offset, chunk, last, rfl⟩ := hdata
      obtain rfl : .data number offset chunk last = call := serving i call _ here
      exact .inl ⟨i, number, offset, chunk, last, here, w, st, goes, rfl⟩
    · have hother : ∀ number offset chunk last, p ≠ .entry (.data number offset chunk last) :=
        fun number offset chunk last hp => hdata ⟨number, offset, chunk, last, hp⟩
      have hopen' : s.world.controller.state.isOpen := by
        rcases (goes_of_move goes).open_back hother (current.trans hgeneration.symm) hopen with
          hsame | ⟨g', target', delivery, rfl, owner, hsettled⟩
        · exact hsame ▸ hopen
        · have hstate : w.controller.state = s.world.controller.state := by rw [hsettled]
          exact hstate ▸ hopen
      exact .inr (h.node_eq hgeneration hopen' owned here (goes_of_move goes)
        (stays i call p here) hother)
  | start may => exact .inr rfl
  | answer here asks gets => exact .inr (by rw [keeps.answers _ _ _ _ _ _ gets]; rfl)
  | wake here waits => exact .inr rfl
  | engine goes => exact .inr rfl
  | drift goes => exact .inr (by rw [keeps.drifts _ _ _ _ goes]; rfl)

/-! ### How data calls are answered -/

/-- A chunk for another target, or in another state, is refused. -/
lemma enterData_of_foreign {w : World} {number offset : Nat} {chunk : Bytes} {last : Bool}
    (named : ∀ u, w.controller.active = some u → u.target = target)
    (foreign : ¬ (TakesData w.controller ∧ Target.ofNumber? number = some target)) :
    enterData w number offset chunk last = .reply w (.data (.error .invalidData)) := by
  unfold enterData
  cases hknown : Target.ofNumber? number with
  | none => rfl
  | some other =>
    cases hactive : w.controller.active with
    | none => rfl
    | some u =>
      obtain rfl := named u hactive
      dsimp only
      rw [if_pos]
      by_contra hopen
      simp only [Bool.or_eq_true, Bool.and_eq_true, bne_iff_ne, not_or, not_and,
        Decidable.not_not] at hopen
      refine foreign ⟨⟨?_, by rw [hactive]; rfl⟩, by rw [hknown, hopen.2]⟩
      by_cases hrequested : w.controller.state = .requested
      · exact .inl hrequested
      · exact .inr (hopen.1 hrequested)

/-- A chunk that the update takes is looked at further by its offset only. -/
lemma enterData_of_taken {w : World} {number offset : Nat} {chunk : Bytes} {last : Bool}
    {u : ActiveUpdate} (open_ : w.controller.state.isOpen) (active : w.controller.active = some u)
    (known : Target.ofNumber? number = some u.target) :
    enterData w number offset chunk last =
      if offset = u.received then enterData w number u.received chunk last
      else .reply w (.data (.error .invalidOffset)) := by
  split
  · rename_i heq
    rw [heq]
  · rename_i hne
    rcases open_ with hs | hs <;> simp [enterData, known, active, hs, hne]

/-- A chunk at the right offset is written behind the others. -/
lemma Gapless.enterData_eq (h : Gapless g target path n s) {number : Nat} {chunk : Bytes}
    {last : Bool} (takes : TakesData s.world.controller)
    (known : Target.ofNumber? number = some target) :
    enterData s.world number (s.chunks g).length chunk last =
      writeChunk s.world ⟨target, (s.chunks g).length + chunk.length,
        .staged path (some ⟨n, (s.chunks g).length⟩)⟩ path
        (some ⟨n, (s.chunks g).length⟩) chunk last := by
  obtain ⟨hopen, hactive⟩ := takes
  obtain ⟨u, hu⟩ := Option.isSome_iff_exists.mp hactive
  obtain rfl := h.counts hopen u hu
  rcases hopen with hs | hs <;> simp [enterData, known, hu, hs]

/-- A chunk at the right offset is taken if there is room for it, and is then in the file. -/
lemma Gapless.takes (h : Gapless g target path n s) (current : s.world.controller.generation = g)
    {number offset : Nat} {chunk : Bytes} {last : Bool} {w : World} {st : Status}
    (takes : TakesData s.world.controller) (known : Target.ofNumber? number = some target)
    (at_ : offset = (s.chunks g).length) (room : s.world.files.takes chunk.length)
    (goes : (enterData s.world number offset chunk last).result? = some (w, st)) :
    Event.of? s.world (.entry (.data number offset chunk last)) w st =
        some (.received g chunk last) ∧
      ∃ x, w.files.node? n = some (.file (s.chunks g ++ chunk) x) := by
  obtain ⟨x, hnode⟩ := h.holds takes.1
  obtain ⟨handle, files, hwrite⟩ :=
    FileSystem.write_file (h := ⟨n, (s.chunks g).length⟩) hnode room
  obtain ⟨rfl, hafter⟩ := FileSystem.write_end hnode hwrite
  have hsync : files.sync ⟨n, (s.chunks g ++ chunk).length⟩ = .ok () := by
    simp [FileSystem.sync, hafter]
  subst at_ current
  simp only [h.enterData_eq takes known, writeChunk, hwrite, hsync] at goes
  cases last with
  | false =>
    obtain ⟨rfl, rfl⟩ := by simpa using goes
    exact ⟨rfl, x, hafter⟩
  | true =>
    obtain ⟨rfl, rfl⟩ := by simpa using goes
    cases target with
    | manifest => exact ⟨rfl, x, hafter⟩
    | system => exact ⟨rfl, x, hafter⟩

/-- Without room for the chunk the update is given up. -/
lemma Gapless.fails (h : Gapless g target path n s) {number offset : Nat} {chunk : Bytes}
    {last : Bool} {w : World} {st : Status} (takes : TakesData s.world.controller)
    (known : Target.ofNumber? number = some target) (at_ : offset = (s.chunks g).length)
    (full : ¬ s.world.files.takes chunk.length)
    (goes : (enterData s.world number offset chunk last).result? = some (w, st)) :
    w.controller = s.world.controller.release ∧ ∃ code,
      st = .running (.removing path (.data (.error code))) := by
  obtain ⟨x, hnode⟩ := h.holds takes.1
  have hwrite : s.world.files.write ⟨n, (s.chunks g).length⟩ chunk = .error .deviceFull :=
    FileSystem.write_full hnode full
  subst at_
  simp only [h.enterData_eq takes known, writeChunk, hwrite] at goes
  obtain ⟨rfl, rfl⟩ := by simpa using goes
  exact ⟨rfl, _, rfl⟩

/-- How a data call is answered while this update is current: `v` is what its first step comes
to. -/
structure Answered (g : Nat) (target : Target) (n : Nat) (s v : System σ)
    (j number offset : Nat) (chunk : Bytes) (last : Bool) : Prop where
  foreign : ¬ (TakesData s.world.controller ∧ Target.ofNumber? number = some target) →
    v = s.replied j (.data number offset chunk last) (.data (.error .invalidData))
  misplaced : TakesData s.world.controller → Target.ofNumber? number = some target →
    offset ≠ (s.chunks g).length →
      v = s.replied j (.data number offset chunk last) (.data (.error .invalidOffset))
  accepted : TakesData s.world.controller → Target.ofNumber? number = some target →
    offset = (s.chunks g).length → s.world.files.takes chunk.length →
      v.history = (j, .received g chunk last) :: s.history ∧
      ∃ x, v.world.files.node? n = some (.file (s.chunks g ++ chunk) x)
  /-- there is no room for the chunk, and the update is given up -/
  full : TakesData s.world.controller → Target.ofNumber? number = some target →
    offset = (s.chunks g).length → ¬ s.world.files.takes chunk.length →
      v.world.controller = s.world.controller.release ∧ v.chunks g = s.chunks g

lemma moved_of_refused {i number offset : Nat} {chunk : Bytes} {last : Bool} {code : DataCode} :
    s.moved i (.data number offset chunk last) (.entry (.data number offset chunk last)) s.world
        (.returned (.data (.error code))) =
      s.replied i (.data number offset chunk last) (.data (.error code)) := by
  simp [System.moved, System.replied, Event.of?]

lemma Gapless.answered (h : Gapless g target path n s)
    (current : s.world.controller.generation = g) {j number offset : Nat} {chunk : Bytes}
    {last : Bool} {v : System σ} (moves : s.Moves setup v j (.data number offset chunk last)
      (.entry (.data number offset chunk last))) :
    Answered g target n s v j number offset chunk last := by
  obtain ⟨-, w, st, goes, rfl⟩ := moves
  replace goes : (enterData s.world number offset chunk last).result? = some (w, st) := goes
  constructor
  · intro foreign
    rw [enterData_of_foreign h.names foreign] at goes
    obtain ⟨rfl, rfl⟩ := by simpa using goes
    exact moved_of_refused
  · intro takes known hne
    obtain ⟨u, hu⟩ := Option.isSome_iff_exists.mp takes.2
    obtain rfl := h.counts takes.1 u hu
    rw [enterData_of_taken takes.1 hu known, if_neg hne] at goes
    obtain ⟨rfl, rfl⟩ := by simpa using goes
    exact moved_of_refused
  · intro takes known at_ room
    obtain ⟨hlog, hnode⟩ := h.takes current takes known at_ room goes
    exact ⟨by simp [System.moved, hlog], hnode⟩
  · intro takes known at_ full
    obtain ⟨hcontroller, code, rfl⟩ := h.fails takes known at_ full goes
    refine ⟨hcontroller, ?_⟩
    rw [chunks_moved]
    simp [Event.of?, Event.chunkOf?]

/-! ### From the beginning -/

/-- The node `n` was opened for the staged update `g`, which may be over by now. -/
structure Downloading (g : Nat) (target : Target) (path : String) (n : Nat) (s : System σ) :
    Prop where
  founded : Founded s
  known : g ≤ s.world.controller.generation
  gapless : s.world.controller.generation = g → Gapless g target path n s

lemma Downloading.step (h : Downloading g target path n s) (step : Step setup around s t)
    (undisturbed : Undisturbed setup g n s t) : Downloading g target path n t := by
  have hle := step.generation_le
  have hknown := h.known
  refine ⟨h.founded.step step, by omega, fun current => ?_⟩
  exact (h.gapless (by omega)).step h.founded h.known current step undisturbed

/-- The system after the request opened its file. -/
def System.created (s : System σ) (i : Nat) (call : Call) (g : Nat) (target : Target)
    (path : String) (handle : Handle) (files : FileSystem) : System σ :=
  s.moved i call (.creating g target path) (s.world.setFiles files)
    (.running (.settling g target (.staged path (some handle))))

lemma step_created {i : Nat} {call : Call} {handle : Handle} {files : FileSystem}
    (here : s.threads[i]? = some ⟨call, .running (.creating g target path)⟩)
    (create : s.world.files.create path = .ok (handle, files)) :
    Step setup around s (s.created i call g target path handle files) :=
  .move here (by simp [Point.move, create])

/-- The file that was just made for the update is empty. -/
lemma downloading_of_created {i : Nat} {call : Call} {handle : Handle} {files : FileSystem}
    {content : Bytes} {x : Bool} (founded : Founded s)
    (here : s.threads[i]? = some ⟨call, .running (.creating g target path)⟩)
    (create : s.world.files.create path = .ok (handle, files))
    (regular : files.node? handle.node = some (.file content x))
    (step : Step setup around s (s.created i call g target path handle files)) :
    Downloading g target path handle.node (s.created i call g target path handle files) := by
  have hgathers := FileSystem.gathers_of_create create
  have hlt := (List.getElem?_eq_some_iff.mp here).1
  have hfiles : (s.created i call g target path handle files).world.files = files := rfl
  have hthere : (s.created i call g target path handle files).threads[i]? =
      some ⟨call, .running (.settling g target (.staged path (some handle)))⟩ := by
    simp [System.created, System.moved, List.getElem?_set_self hlt]
  have hafter := founded.step step
  generalize s.created i call g target path handle files = t at hfiles hthere hafter ⊢
  have hopening := hafter.opening i call _ hthere g rfl
  obtain ⟨a, file, haccepted⟩ := hopening.accepted
  refine ⟨hafter, hafter.numbered.known i g a file haccepted, fun current => ?_⟩
  have hnone := hopening.inactive current
  have hnil : t.chunks g = [] := chunks_eq_nil hopening.empty
  have hhandle : handle = ⟨handle.node, 0⟩ := by
    have hoffset : handle.offset = 0 := hgathers.offset
    rw [← hoffset]
  refine ⟨?_, by simp [hnone], by simp [hnone], fun _ => ⟨x, ?_⟩⟩
  · intro j call' p hj hrole
    obtain rfl := hafter.unique hj hthere hrole rfl
    obtain ⟨-, hp⟩ := Thread.mk.inj (Option.some.inj (hj.symm.trans hthere))
    rw [Status.running.inj hp, ← hhandle]
  · rw [hfiles, hnil, regular, hgathers.content content x regular]

/-- If chunks come one after another, or nobody resets, nobody but data calls ever writes the file
of an update that takes data, as long as nothing else on the device does. -/
theorem undisturbed_of_fair {w : World} {d : σ} {i : Nat} {call : Call} {handle : Handle}
    {files : FileSystem} {content : Bytes} {x : Bool} (controller : w.controller = {})
    (fair : around.Fair) (keeps : around.KeepsFiles)
    (before : Run setup around (System.fresh w d) s)
    (here : s.threads[i]? = some ⟨call, .running (.creating g target path)⟩)
    (create : s.world.files.create path = .ok (handle, files))
    (regular : files.node? handle.node = some (.file content x))
    (run : Run setup around (s.created i call g target path handle files) t) :
    UndisturbedRun setup around g handle.node (s.created i call g target path handle files) t := by
  have hs : Ordered around s ∧ s.Serving ∧ s.Stays :=
    before.keeps (P := fun u => Ordered around u ∧ u.Serving ∧ u.Stays)
      ⟨(steady_fresh fair w d controller).1, System.all_fresh w d, System.all_fresh w d⟩
      fun hu step => ⟨hu.1.step step, step.serving hu.2.1, step.stays hu.2.2⟩
  have hbegun : Step setup around s _ := step_created here create
  have hdownloading := downloading_of_created before.founded here create regular hbegun
  generalize s.created i call g target path handle files = s' at run hbegun hdownloading
  suffices h : UndisturbedRun setup around g handle.node s' t ∧
      Downloading g target path handle.node t ∧ Ordered around t ∧ t.Serving ∧ t.Stays from h.1
  induction run with
  | refl =>
    exact ⟨.refl, hdownloading, hs.1.step hbegun, hbegun.serving hs.2.1, hbegun.stays hs.2.2⟩
  | tail _ step ih =>
    obtain ⟨hrun, hu, horder, hserving, hstays⟩ := ih
    have hundisturbed := Gapless.undisturbed hu.gapless hu.known horder.owned hserving hstays
      keeps step
    exact ⟨hrun.tail ⟨step, hundisturbed⟩, hu.step step hundisturbed, horder.step step,
      step.serving hserving, step.stays hstays⟩

/-- A request opened a regular file for its update, and nobody but data calls writes that while the
update takes data. Then the file holds exactly the chunks that were accepted, in order, and the
update counts its bytes. A chunk for the update is accepted exactly at that offset, as long as there
is room for it, and any other is refused without a trace, by the code that tells why. After the
final chunk none is accepted any more. -/
theorem download_gapless {w : World} {d : σ} {i : Nat} {call : Call} {handle : Handle}
    {files : FileSystem} {content : Bytes} {x : Bool}
    (before : Run setup around (System.fresh w d) s)
    (here : s.threads[i]? = some ⟨call, .running (.creating g target path)⟩)
    (create : s.world.files.create path = .ok (handle, files))
    (regular : files.node? handle.node = some (.file content x))
    (run : UndisturbedRun setup around g handle.node
      (s.created i call g target path handle files) t) :
    (t.world.controller.generation = g →
      (t.world.controller.state.isOpen →
        (∃ x, t.world.files.node? handle.node = some (.file (t.chunks g) x)) ∧
        ∀ u, t.world.controller.active = some u → u = ⟨target, (t.chunks g).length,
          .staged path (some ⟨handle.node, (t.chunks g).length⟩)⟩) ∧
      ∀ j number offset chunk last v,
        t.Moves setup v j (.data number offset chunk last)
          (.entry (.data number offset chunk last)) →
          Answered g target handle.node t v j number offset chunk last) ∧
    ∀ chunk, t.Logged (.received g chunk true) →
      ∀ u, Run setup around t u → u.arrivals g = t.arrivals g := by
  have hbegun : Step setup around s _ := step_created here create
  have hdownloading := downloading_of_created before.founded here create regular hbegun
  have hends : Ends s := before.keeps (by rintro g chunk ⟨k, hk⟩; simp [System.fresh] at hk)
    fun hu step => hu.step step
  generalize s.created i call g target path handle files = s' at run hbegun hdownloading
  have ht : Downloading g target path handle.node t ∧ Ends t := by
    induction run with
    | refl => exact ⟨hdownloading, hends.step hbegun⟩
    | tail _ hstep ih => exact ⟨ih.1.step hstep.1 hstep.2, ih.2.step hstep.1⟩
  refine ⟨fun current => ?_, fun chunk logged u hu => (ht.2 g chunk logged).arrivals_run hu⟩
  have h := ht.1.gapless current
  exact ⟨fun hopen => ⟨h.holds hopen, h.counts hopen⟩,
    fun j number offset chunk last v moves => h.answered current moves⟩

end

/-! ### A run -/

namespace Small

/-- A request that is about to open its file. -/
def opening : List Choice := [.start (.request 0 "image.swu" 3), .go 0, .go 0]

/-- Two callers send the first chunk, a third one a chunk for another target, and then the next
chunk comes. -/
def crowding : List Choice :=
  [.go 0, .start (.data 0 0 [7, 8] false), .start (.data 0 0 [7, 8] false),
    .start (.data 1 2 [9] false), .go 2, .go 3, .go 1, .start (.data 0 2 [9] false), .go 4]

def beforeOpening : System Unit := (overlap? (fresh .dual) opening).getD (fresh .dual)

def opened : System Unit :=
  beforeOpening.created 0 (.request 0 "image.swu" 3) 1 .system "dl/image.swu" ⟨2, 0⟩
    (files.addFile 1 "image.swu")

def afterCrowd : System Unit := (overlap? opened crowding).getD opened

lemma run_beforeOpening : Run setup overlapping (fresh .dual) beforeOpening :=
  run_of_overlap (rfl : overlap? (fresh .dual) opening = some beforeOpening)

lemma run_afterCrowd : Run setup overlapping opened afterCrowd :=
  run_of_overlap (rfl : overlap? opened crowding = some afterCrowd)

lemma overlapping_keepsFiles : (Surroundings.overlapping answers).KeepsFiles :=
  Surroundings.keepsFiles_of_answers (fun _ _ _ _ _ _ h => h) (fun _ _ _ => rfl) fun _ _ _ _ => id

end Small

theorem crowded_download_is_gapless :
    (∃ x, Small.afterCrowd.world.files.node? 2 = some (.file [7, 8, 9] x)) ∧
      Small.afterCrowd.world.controller.active =
        some ⟨.system, 3, .staged "dl/image.swu" (some ⟨2, 3⟩)⟩ := by
  have hcreate : Small.beforeOpening.world.files.create "dl/image.swu" =
      .ok (⟨2, 0⟩, Small.files.addFile 1 "image.swu") := rfl
  have hregular : (Small.files.addFile 1 "image.swu").node? 2 = some (.file [] false) := rfl
  have hrun := undisturbed_of_fair rfl (.inr (overlapping_neverResets _))
    Small.overlapping_keepsFiles Small.run_beforeOpening rfl hcreate hregular Small.run_afterCrowd
  have h := download_gapless Small.run_beforeOpening rfl hcreate hregular hrun
  obtain ⟨hnode, hcounts⟩ := (h.1 rfl).1 (.inr rfl)
  exact ⟨hnode, congrArg some (hcounts _ rfl)⟩

end DeviceUpdate.Session
