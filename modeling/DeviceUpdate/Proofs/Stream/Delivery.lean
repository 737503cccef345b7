import DeviceUpdate.Proofs.Stream.Calls
import Mathlib.Data.List.Infix

/-!
# What passes through a slot

A slot holds one chunk at a time, and a second push replaces the first chunk. `sent` tells from the
history what became of each chunk that went in. The slot agrees with that after every step, so the
chunks that came out are those that went in, in that order, without the ones that were overwritten
or dropped, and without the one that still waits.
-/

namespace DeviceUpdate.Stream

/-- What became of a chunk that went in. -/
inductive Fate where
  | pending
  | taken
  /-- another chunk was put in before this one was taken -/
  | overwritten
  /-- an abort came before this one was taken -/
  | dropped
  deriving DecidableEq

/-- A chunk that went in. -/
structure Sent where
  chunk : Bytes
  last : Bool
  fate : Fate
  deriving DecidableEq

/-- A chunk that still waits meets its fate. -/
def Sent.settle (fate : Fate) (c : Sent) : Sent :=
  if c.fate = .pending then { c with fate := fate } else c

/-- The chunks that went in, in the order of their pushes, with what became of each. -/
def sent : List Event → List Sent
  | [] => []
  | .pushed chunk last _ :: earlier =>
    (sent earlier).map (Sent.settle .overwritten) ++ [⟨chunk, last, .pending⟩]
  | .pulled _ :: earlier => (sent earlier).map (Sent.settle .taken)
  | .aborted :: earlier => (sent earlier).map (Sent.settle .dropped)
  | _ :: earlier => sent earlier

/-- The chunks that were taken. -/
def taken (l : List Sent) : List Bytes := (l.filter fun c => c.fate = .taken).map Sent.chunk

/-- A final chunk was taken. -/
def LastTaken (l : List Sent) : Prop := ∃ c ∈ l, c.last ∧ c.fate = .taken

/-- No chunk waits any more. -/
def Settled (l : List Sent) : Prop := ∀ c ∈ l, c.fate ≠ .pending

/-- The chunks that pulls returned, in the order of these pulls. -/
def received : List Event → List Bytes
  | [] => []
  | .pulled chunk :: earlier => received earlier ++ [chunk]
  | _ :: earlier => received earlier

/-- The chunks that the slot accepted, each with whether it is the last, in the order of their
pushes. -/
def accepted : List Event → List (Bytes × Bool)
  | [] => []
  | .pushed chunk last _ :: earlier => accepted earlier ++ [(chunk, last)]
  | _ :: earlier => accepted earlier

/-- The chunks that the slot accepted or turned away. -/
def offered : List Event → List (Bytes × Bool)
  | [] => []
  | .pushed chunk last _ :: earlier => offered earlier ++ [(chunk, last)]
  | .refused chunk last :: earlier => offered earlier ++ [(chunk, last)]
  | _ :: earlier => offered earlier

/-- All bytes that the pushes have offered. -/
def image (e : List Event) : Bytes := ((offered e).map Prod.fst).flatten

/-- Nothing aborted, and each chunk was put in while no other one waited. -/
structure Smooth (e : List Event) : Prop where
  alone : ∀ chunk last waiting, .pushed chunk last waiting ∈ e → waiting = false
  running : .aborted ∉ e

/-- No push came after one with the last chunk. -/
def LastIsLast (e : List Event) : Prop := (offered e).Pairwise fun earlier _ => earlier.2 = false

/-! ### Settling the chunk that waits -/

section Settle

variable {l : List Sent} {f : Fate}

@[simp] lemma settle_chunk (c : Sent) : (c.settle f).chunk = c.chunk := by
  unfold Sent.settle
  split <;> rfl

@[simp] lemma settle_last (c : Sent) : (c.settle f).last = c.last := by
  unfold Sent.settle
  split <;> rfl

lemma settle_fate (c : Sent) :
    c.fate = .pending ∧ (c.settle f).fate = f ∨ c.fate ≠ .pending ∧ (c.settle f) = c := by
  unfold Sent.settle
  split
  · exact .inl ⟨‹_›, rfl⟩
  · exact .inr ⟨‹_›, rfl⟩

lemma settle_taken (hf : f ≠ .taken) (c : Sent) : (c.settle f).fate = .taken ↔ c.fate = .taken := by
  rcases settle_fate (f := f) c with ⟨hp, hs⟩ | ⟨-, hs⟩
  · rw [hs, hp]
    exact ⟨fun h => (hf h).elim, fun h => by cases h⟩
  · rw [hs]

lemma settled_map (hf : f ≠ .pending) : Settled (l.map (Sent.settle f)) := by
  intro c hc
  obtain ⟨d, -, rfl⟩ := List.mem_map.mp hc
  rcases settle_fate (f := f) d with ⟨-, hs⟩ | ⟨hp, hs⟩
  · rwa [hs]
  · rwa [hs]

lemma Settled.map_settle (h : Settled l) : l.map (Sent.settle f) = l := by
  refine (List.map_congr_left fun c hc => ?_).trans (List.map_id l)
  rw [Sent.settle, if_neg (h c hc), id]

lemma taken_map_settle (hf : f ≠ .taken) : taken (l.map (Sent.settle f)) = taken l := by
  induction l with
  | nil => rfl
  | cons c rest ih =>
    simp only [taken, List.map_cons, List.filter_cons, settle_taken hf] at ih ⊢
    split
    · rw [List.map_cons, List.map_cons, ih, settle_chunk]
    · exact ih

lemma taken_append (l m : List Sent) : taken (l ++ m) = taken l ++ taken m := by
  simp only [taken, List.filter_append, List.map_append]

lemma taken_pending (chunk : Bytes) (last : Bool) : taken [⟨chunk, last, .pending⟩] = [] := rfl

lemma taken_eq_map (h : ∀ c ∈ l, c.fate = .taken) : taken l = l.map Sent.chunk := by
  rw [taken, List.filter_eq_self.mpr fun c hc => decide_eq_true (h c hc)]

lemma lastTaken_map_settle (hf : f ≠ .taken) : LastTaken (l.map (Sent.settle f)) ↔ LastTaken l := by
  simp only [LastTaken, List.mem_map, exists_exists_and_eq_and, settle_last, settle_taken hf]

lemma map_pairs_settle :
    (l.map (Sent.settle f)).map (fun c => (c.chunk, c.last)) =
      l.map fun c => (c.chunk, c.last) := by
  simp [Function.comp_def]

end Settle

/-! ### What one step does to the chunks -/

/-- Nothing happens to the chunks from the one slot to the other. -/
structure SameChunks (s t : Slot) : Prop extends s.Grows t where
  buffer : t.buffer = s.buffer
  ready : t.ready = s.ready
  lastChunkSize : t.lastChunkSize = s.lastChunkSize
  finalPushed : t.finalPushed = s.finalPushed
  finalDrained : t.finalDrained = s.finalDrained
  still : t.aborted = s.aborted

/-- Something that happened is about the chunks. -/
def Event.OnChunks : Event → Prop
  | .pushed .. | .refused .. | .pulled _ | .ended | .aborted => True
  | _ => False

/-- What a step does to the chunks, and what it tells of that. -/
inductive Deals (s t : Slot) : Option Event → Prop
  | puts {chunk : Bytes} {last : Bool} (takes : s.Accepts) (now : t = s.filled chunk last) :
      Deals s t (some (.pushed chunk last s.ready))
  | refuses {chunk : Bytes} {last : Bool} (closed : ¬ s.Accepts) (same : t = s) :
      Deals s t (some (.refused chunk last))
  | takes (running : s.aborted = false) (more : s.finalDrained = false) (ready : s.ready)
      (now : t = s.drained) : Deals s t (some (.pulled s.buffer))
  | ends (dry : s.aborted ∨ s.finalDrained) (same : t = s) : Deals s t (some .ended)
  | aborts (now : t = s.raiseAbort) : Deals s t (some .aborted)
  | aside {e : Option Event} (other : ∀ ev ∈ e, ¬ ev.OnChunks) (same : SameChunks s t) :
      Deals s t e

variable {s t : System}

lemma Goes.deals {a b : Slot} {p : Point} {st : Status} (goes : Goes a p b st) :
    Deals a b (Event.of? a p st) := by
  have grows := goes.grows
  cases goes with
  | refused aborted => exact .refuses (fun takes => by simp [takes.running] at aborted) rfl
  | tooLate running failed => exact .refuses (fun takes => takes.fine failed) rfl
  | pushed takes => exact .puts takes rfl
  | pushedFinal takes => exact .puts takes rfl
  | ended dry => exact .ends dry rfl
  | pulled running more ready => exact .takes running more ready rfl
  | aborts => exact .aborts rfl
  | _ => exact .aside (by simp [Event.of?, Event.OnChunks]) ⟨grows, rfl, rfl, rfl, rfl, rfl, rfl⟩

/-- Every step deals with the chunks in one of these ways. -/
theorem Step.deals (step : Step s t) :
    ∃ e, t.events = e.toList ++ s.events ∧ Deals s.slot t.slot e := by
  obtain ⟨hslot, e, aside, he⟩ | ⟨i, call, p, st, -, goes, he⟩ := step.cases
  · refine ⟨e, he, .aside ?_ ?_⟩
    · cases aside <;> simp [Event.OnChunks]
    · rw [hslot]
      exact ⟨.refl _, rfl, rfl, rfl, rfl, rfl, rfl⟩
  · exact ⟨_, he, goes.deals⟩

/-! ### The history explains the slot -/

/-- The slot is as the history of its chunks says. -/
structure Explains (e : List Event) (s : Slot) : Prop where
  pairs : (sent e).map (fun c => (c.chunk, c.last)) = accepted e
  came : received e = taken (sent e)
  size : s.lastChunkSize = (received e).getLast?.elim 0 List.length
  /-- the chunk in the buffer is the last one that went in -/
  waits : s.ready → ∃ done, sent e = done ++ [⟨s.buffer, s.finalPushed, .pending⟩] ∧ Settled done
  settled : s.ready = false → Settled (sent e)
  drained : s.finalDrained ↔ LastTaken (sent e)
  aborted : s.aborted ↔ .aborted ∈ e
  /-- once a chunk was turned away no other one goes in -/
  among : accepted e <+: offered e
  all : s.Accepts → accepted e = offered e
  smooth : Smooth e → ∀ c ∈ sent e, c.fate = .taken ∨ c.fate = .pending
  /-- a pull was told of the end only for good -/
  dry : .ended ∈ e → s.aborted ∨ s.finalDrained

section Explains

variable {e : List Event} {a b : Slot}

lemma explains_new : Explains [] {} where
  pairs := rfl
  came := rfl
  size := rfl
  waits h := by cases h
  settled _ _ hc := by cases hc
  drained := by simp [LastTaken, sent]
  aborted := by simp
  among := List.nil_prefix
  all _ := rfl
  smooth _ _ hc := by cases hc
  dry h := by cases h

lemma Smooth.earlier {ev : Event} (h : Smooth (ev :: e)) : Smooth e :=
  ⟨fun chunk last waiting hm => h.alone chunk last waiting (List.mem_cons_of_mem _ hm),
    fun hm => h.running (List.mem_cons_of_mem _ hm)⟩

lemma Explains.pass (h : Explains e a) (same : SameChunks a b) : Explains e b where
  pairs := h.pairs
  came := h.came
  size := same.lastChunkSize.trans h.size
  waits hr := by
    rw [same.buffer, same.finalPushed]
    exact h.waits (same.ready ▸ hr)
  settled hr := h.settled (same.ready ▸ hr)
  drained := same.finalDrained ▸ h.drained
  aborted := same.still ▸ h.aborted
  among := h.among
  all takes := h.all (takes.back same.toGrows)
  smooth := h.smooth
  dry he := by
    rw [same.still, same.finalDrained]
    exact h.dry he

lemma Explains.tell {ev : Event} (h : Explains e a) (other : ¬ ev.OnChunks) :
    Explains (ev :: e) a := by
  have hsmooth : Smooth (ev :: e) → ∀ c ∈ sent e, c.fate = .taken ∨ c.fate = .pending :=
    fun hs => h.smooth hs.earlier
  cases ev with
  | pushed | refused | pulled | ended | aborted => exact (other trivial).elim
  | _ =>
    exact ⟨h.pairs, h.came, h.size, h.waits, h.settled, h.drained, by simpa using h.aborted,
      h.among, h.all, hsmooth, fun he => h.dry (by simpa using he)⟩

lemma Explains.puts {chunk : Bytes} {last : Bool} (h : Explains e a) (takes : a.Accepts) :
    Explains (.pushed chunk last a.ready :: e) (a.filled chunk last) where
  pairs := by
    simp only [sent, accepted, List.map_append, map_pairs_settle, h.pairs, List.map_cons,
      List.map_nil]
  came := by
    rw [sent, taken_append, taken_map_settle (by decide), taken_pending, List.append_nil]
    exact h.came
  size := h.size
  waits _ := ⟨_, rfl, settled_map (by decide)⟩
  settled hr := by cases hr
  drained := by
    rw [Slot.filled, h.drained,
      ← lastTaken_map_settle (l := sent e) (f := .overwritten) (by decide)]
    simp [LastTaken, sent]
  aborted := by simpa [Slot.filled] using h.aborted
  among := by
    rw [accepted, offered, h.all takes]
  all _ := by rw [accepted, offered, h.all takes]
  smooth hs c hc := by
    -- no chunk waited, so none was overwritten
    have hready : a.ready = false := hs.alone _ _ _ List.mem_cons_self
    rw [sent, (h.settled hready).map_settle, List.mem_append] at hc
    rcases hc with hc | hc
    · exact h.smooth hs.earlier c hc
    · obtain rfl := List.mem_singleton.mp hc
      exact .inr rfl
  dry he := h.dry (by simpa using he)

lemma Explains.refuses {chunk : Bytes} {last : Bool} (h : Explains e a) (closed : ¬ a.Accepts) :
    Explains (.refused chunk last :: e) a where
  pairs := h.pairs
  came := h.came
  size := h.size
  waits := h.waits
  settled := h.settled
  drained := h.drained
  aborted := by simpa using h.aborted
  among := h.among.trans (List.prefix_append _ _)
  all takes := (closed takes).elim
  smooth hs := h.smooth hs.earlier
  dry he := h.dry (by simpa using he)

lemma Explains.takes (h : Explains e a) (more : a.finalDrained = false) (ready : a.ready) :
    Explains (.pulled a.buffer :: e) a.drained := by
  obtain ⟨done, hsent, hdone⟩ := h.waits ready
  have hnow : sent (.pulled a.buffer :: e) = done ++ [⟨a.buffer, a.finalPushed, .taken⟩] := by
    rw [sent, hsent, List.map_append, hdone.map_settle]
    rfl
  have hnone : ¬ LastTaken (sent e) := fun hl => by simp [h.drained.mpr hl] at more
  rw [hsent] at hnone
  exact {
    pairs := by simpa only [sent, accepted, map_pairs_settle] using h.pairs
    came := by
      rw [hnow, received, h.came, hsent, taken_append, taken_append, taken_pending,
        List.append_nil]
      rfl
    size := by simp [received, Slot.drained]
    waits hr := by cases hr
    settled _ := by
      rw [sent]
      exact settled_map (by decide)
    drained := by
      rw [hnow]
      constructor
      · intro hf
        exact ⟨_, List.mem_append_right _ List.mem_cons_self, hf, rfl⟩
      · rintro ⟨c, hc, hlast, htaken⟩
        rcases List.mem_append.mp hc with hc | hc
        · exact (hnone ⟨c, List.mem_append_left _ hc, hlast, htaken⟩).elim
        · obtain rfl := List.mem_singleton.mp hc
          exact hlast
    aborted := by simpa [Slot.drained] using h.aborted
    among := h.among
    all takes := h.all ⟨takes.running, takes.fine⟩
    smooth hs c hc := by
      rw [sent] at hc
      obtain ⟨d, hd, rfl⟩ := List.mem_map.mp hc
      rcases settle_fate (f := .taken) d with ⟨-, ht⟩ | ⟨-, ht⟩
      · exact .inl ht
      · rw [ht]
        exact h.smooth hs.earlier d hd
    dry he := by
      rcases h.dry (by simpa using he) with ha | hd
      · exact .inl ha
      · simp [more] at hd }

lemma Explains.ends (h : Explains e a) (dry : a.aborted ∨ a.finalDrained) :
    Explains (.ended :: e) a where
  pairs := h.pairs
  came := h.came
  size := h.size
  waits := h.waits
  settled := h.settled
  drained := h.drained
  aborted := by simpa using h.aborted
  among := h.among
  all := h.all
  smooth hs := h.smooth hs.earlier
  dry _ := dry

lemma Explains.aborts (h : Explains e a) : Explains (.aborted :: e) a.raiseAbort where
  pairs := by simpa only [sent, accepted, map_pairs_settle] using h.pairs
  came := by
    rw [sent, taken_map_settle (by decide)]
    exact h.came
  size := h.size
  waits hr := by cases hr
  settled _ := by
    rw [sent]
    exact settled_map (by decide)
  drained := by
    rw [sent, lastTaken_map_settle (by decide)]
    exact h.drained
  aborted := by simp [Slot.raiseAbort]
  among := h.among
  all takes := by cases takes.running
  smooth hs := (hs.running List.mem_cons_self).elim
  dry _ := .inl rfl

/-- The history goes on explaining the slot. -/
theorem Explains.step {ev : Option Event} (h : Explains e a) (deals : Deals a b ev) :
    Explains (ev.toList ++ e) b := by
  cases deals with
  | puts takes now => exact now ▸ h.puts takes
  | refuses closed same => exact same ▸ h.refuses closed
  | takes running more ready now => exact now ▸ h.takes more ready
  | ends dry same => exact same ▸ h.ends dry
  | aborts now => exact now ▸ h.aborts
  | aside other same =>
    cases ev with
    | none => exact h.pass same
    | some ev => exact (h.tell (other ev rfl)).pass same

end Explains

theorem explained (run : Run .fresh s) : Explains s.events s.slot := by
  refine run.keeps (P := fun s => Explains s.events s.slot) explains_new fun _ hu step => ?_
  obtain ⟨e, he, deals⟩ := step.deals
  rw [he]
  exact hu.step deals

example : (System.fresh.replay? [.start (.push [1] false), .go 0, .start (.push [2] false), .go 1,
    .start .pull, .go 2, .start (.push [3] true), .go 3, .start .abort, .go 4]).map
      (fun s => (sent s.events, received s.events)) =
    some ([⟨[1], false, .overwritten⟩, ⟨[2], false, .taken⟩, ⟨[3], true, .dropped⟩], [[2]]) := rfl

lemma Explains.ready_iff {e : List Event} {a : Slot} (h : Explains e a) :
    a.ready ↔ ¬ Settled (sent e) := by
  refine ⟨fun hr hs => ?_, fun hs => ?_⟩
  · obtain ⟨done, hsent, -⟩ := h.waits hr
    exact hs _ (hsent ▸ List.mem_append_right _ List.mem_cons_self) rfl
  · cases hr : a.ready with
    | true => rfl
    | false => exact (hs (h.settled hr)).elim

/-! ### When every chunk was taken before the next one came -/

section Smooth

variable {e : List Event} {a : Slot}

lemma Explains.chunks (h : Explains e a) : (sent e).map Sent.chunk = (accepted e).map Prod.fst := by
  rw [← h.pairs, List.map_map]
  rfl

/-- What came out is the beginning of what went in. -/
lemma Explains.received_prefix (h : Explains e a) (smooth : Smooth e) :
    received e <+: (offered e).map Prod.fst := by
  refine List.IsPrefix.trans ?_ (h.among.map Prod.fst)
  rw [h.came, ← h.chunks]
  have hfate := h.smooth smooth
  by_cases hr : a.ready
  · obtain ⟨done, hsent, hdone⟩ := h.waits hr
    rw [hsent] at hfate ⊢
    have htaken (c : Sent) (hc : c ∈ done) : c.fate = .taken :=
      (hfate c (List.mem_append_left _ hc)).resolve_right (hdone c hc)
    rw [taken_append, taken_pending, List.append_nil, taken_eq_map htaken, List.map_append]
    exact List.prefix_append _ _
  · have hdone := h.settled (by simpa using hr)
    rw [taken_eq_map fun c hc => (hfate c hc).resolve_right (hdone c hc)]

/-- Once the last chunk came out, everything that was offered came out. -/
lemma Explains.received_all (h : Explains e a) (smooth : Smooth e) (ordered : LastIsLast e)
    (last : LastTaken (sent e)) : received e = (offered e).map Prod.fst := by
  obtain ⟨c, hc, hlast, htaken⟩ := last
  -- nothing was offered after the accepted chunks
  have hoffered : accepted e = offered e := by
    obtain ⟨rest, hrest⟩ := h.among
    cases rest with
    | nil => rwa [List.append_nil] at hrest
    | cons next rest =>
      have hpair : (c.chunk, c.last) ∈ accepted e := h.pairs ▸ List.mem_map_of_mem hc
      rw [LastIsLast, ← hrest] at ordered
      have := (List.pairwise_append.mp ordered).2.2 _ hpair next List.mem_cons_self
      simp [hlast] at this
  -- and no chunk came after the one that was taken as the last
  have hready : a.ready = false := by
    refine Bool.eq_false_iff.mpr fun hr => ?_
    obtain ⟨done, hsent, -⟩ := h.waits hr
    rw [LastIsLast, ← hoffered, ← h.pairs, hsent, List.map_append] at ordered
    rw [hsent] at hc
    rcases List.mem_append.mp hc with hc | hc
    · have := (List.pairwise_append.mp ordered).2.2 _ (List.mem_map_of_mem hc) _ List.mem_cons_self
      simp [hlast] at this
    · obtain rfl := List.mem_singleton.mp hc
      cases htaken
  rw [h.came, ← hoffered, ← h.chunks]
  exact taken_eq_map fun d hd => (h.smooth smooth d hd).resolve_right (h.settled hready d hd)

end Smooth

/-! ### The end of a stream -/

/-- A pull is told of the end only when there is a reason to, and no chunk comes out after that. -/
theorem ends_for_good (run : Run .fresh s) {later earlier : List Event}
    (split : s.events = later ++ .ended :: earlier) :
    (.aborted ∈ earlier ∨ LastTaken (sent earlier)) ∧ ∀ chunk, .pulled chunk ∉ later := by
  induction run generalizing later with
  | refl => simp [System.fresh, System.events] at split
  | @tail u v reached step ih =>
    have hu := explained reached
    obtain ⟨e, he, deals⟩ := step.deals
    rw [he] at split
    cases e with
    | none => exact ih split
    | some ev =>
      cases later with
      | nil =>
        obtain ⟨rfl, rfl⟩ : ev = .ended ∧ u.events = earlier := by simpa using split
        refine ⟨?_, fun _ => List.not_mem_nil⟩
        cases deals with
        | ends dry => exact dry.imp hu.aborted.mp hu.drained.mp
        | aside other => exact (other _ rfl trivial).elim
      | cons first later =>
        obtain ⟨rfl, hrest⟩ : ev = first ∧ u.events = later ++ .ended :: earlier := by
          simpa using split
        obtain ⟨hreason, hnone⟩ := ih hrest
        refine ⟨hreason, fun chunk hm => ?_⟩
        rcases List.mem_cons.mp hm with rfl | hm
        · have hdry := hu.dry (by rw [hrest]; exact List.mem_append_right _ List.mem_cons_self)
          cases deals with
          | takes running more => simp [running, more] at hdry
          | aside other => exact other _ rfl trivial
        · exact hnone chunk hm

lemma Goes.pulls {a b : Slot} {p : Point} {st : Status} {chunk : Bytes} (goes : Goes a p b st)
    (h : Event.of? a p st = some (.pulled chunk)) :
    p = .pull ∧ st = .returned (.pulled (some chunk)) := by
  cases goes with
  | pulled =>
    cases h
    exact ⟨rfl, rfl⟩
  | _ => cases h

/-- A chunk that came out was returned by the pull that took it. -/
lemma returned_of_pulled (run : Run .fresh s) : s.Each fun i call st => ∀ chunk,
    .pulled chunk ∈ s.deeds i → call = .pull ∧ st = .returned (.pulled (some chunk)) := by
  refine run.keeps (P := fun s => s.Each fun i call st => ∀ chunk, .pulled chunk ∈ s.deeds i →
    call = .pull ∧ st = .returned (.pulled (some chunk))) System.each_fresh
    fun reached hu step i call st hi chunk hm => ?_
  cases step.turn hi with
  | new last silent =>
    rw [silent, last, deeds_new reached] at hm
    cases hm
  | idle there silent => exact hu i call st there chunk (silent ▸ hm)
  | goes there goes tells =>
    rw [tells, List.mem_append, Option.mem_toList] at hm
    rcases hm with hnew | hold
    · obtain ⟨rfl, rfl⟩ := goes.pulls hnew
      refine ⟨?_, rfl⟩
      cases call <;> cases stands reached i _ _ there
      rfl
    · cases (hu i call _ there chunk hold).2
  | answered there tells =>
    rw [tells, List.mem_cons] at hm
    cases (hu i call _ there chunk (hm.resolve_left fun h => by cases h)).2
  | woken there held tells =>
    rw [tells, List.mem_append, Option.mem_toList] at hm
    rcases hm with hnew | hold
    · cases Event.ofWake?_eq hnew
    · cases (hu i call _ there chunk hold).2

/-- What pulls return is what pushes put in, in that order, without the chunks that another one
overwrote, that an abort dropped, or that still wait. An image whose chunks never meet comes out
from its beginning, and whole once its last chunk is out. The end of the chunks is told only after
the last one or after an abort, and then for good. -/
theorem chunks_pass_in_order (run : Run .fresh s) :
    (sent s.events).map (fun c => (c.chunk, c.last)) = accepted s.events ∧
      received s.events = taken (sent s.events) ∧
      (s.slot.ready ↔ ¬ Settled (sent s.events)) ∧
      s.slot.lastChunkSize = (received s.events).getLast?.elim 0 List.length ∧
      (∀ i r, s.threads[i]? = some ⟨.pull, .returned r⟩ →
        ∃ chunk : Option Bytes, r = .pulled chunk ∧
          s.deeds i = [chunk.elim Event.ended Event.pulled]) ∧
      (∀ i chunk, (i, .pulled chunk) ∈ s.history →
        s.threads[i]? = some ⟨.pull, .returned (.pulled (some chunk))⟩) ∧
      (Smooth s.events → (received s.events).flatten <+: image s.events ∧
        (LastIsLast s.events → LastTaken (sent s.events) →
          (received s.events).flatten = image s.events)) ∧
      (∀ later earlier, s.events = later ++ .ended :: earlier →
        (.aborted ∈ earlier ∨ LastTaken (sent earlier)) ∧ ∀ chunk, .pulled chunk ∉ later) ∧
      (.ended ∈ s.events → Point.pull.move s.slot = .reply s.slot (.pulled none)) := by
  have h := explained run
  refine ⟨h.pairs, h.came, h.ready_iff, h.size, ?_, fun i chunk hm => ?_, fun smooth => ?_,
    fun later earlier => ends_for_good run, fun ended => ?_⟩
  · intro i r hi
    cases stands run i _ _ hi with
    | @pulled chunk =>
      refine ⟨chunk, rfl, told run i _ _ hi _ _ rfl ?_⟩
      cases chunk <;> rfl
  · have hi := List.getElem?_eq_getElem (made_of_mem run hm)
    obtain ⟨hcall, hst⟩ := returned_of_pulled run i _ _ hi chunk (mem_deeds.mpr hm)
    rw [hi, ← hcall, ← hst]
    rfl
  · refine ⟨(h.received_prefix smooth).flatten, fun ordered last => ?_⟩
    rw [h.received_all smooth ordered last, image]
  · have htake : s.slot.take = .ended := by
      rw [Slot.take, if_pos (by simpa using h.dry ended)]
    rw [Point.move, htake]

/-- Two chunks go in and come out, and a third pull finds no more. -/
def twoChunks : List Choice :=
  [.start (.push [1, 2] false), .go 0, .start .pull, .go 1, .start (.push [3] true), .go 2,
    .start .pull, .go 3, .start .pull, .go 4]

def afterTwoChunks : System := (System.fresh.replay? twoChunks).getD .fresh

theorem two_chunks_pass :
    (received afterTwoChunks.events).flatten = [1, 2, 3] ∧ afterTwoChunks.slot.lastChunkSize = 1 ∧
      Point.pull.move afterTwoChunks.slot = .reply afterTwoChunks.slot (.pulled none) := by
  have run : Run .fresh afterTwoChunks :=
    run_of_replay (rfl : System.fresh.replay? twoChunks = some afterTwoChunks)
  have hevents : afterTwoChunks.events = [.ended, .pulled [3], .pushed [3] true false,
      .pulled [1, 2], .pushed [1, 2] false false] := rfl
  obtain ⟨-, -, -, hsize, -, -, hsmooth, -, hended⟩ := chunks_pass_in_order run
  have smooth : Smooth afterTwoChunks.events := by
    rw [hevents]
    exact ⟨by simp, by simp⟩
  have ordered : LastIsLast afterTwoChunks.events := by simp [hevents, LastIsLast, offered]
  have last : LastTaken (sent afterTwoChunks.events) := ⟨⟨[3], true, .taken⟩, by decide, rfl, rfl⟩
  refine ⟨((hsmooth smooth).2 ordered last).trans rfl, hsize.trans rfl, hended ?_⟩
  rw [hevents]
  exact List.mem_cons_self

end DeviceUpdate.Stream
