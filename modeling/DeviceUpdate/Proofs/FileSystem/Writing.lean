import DeviceUpdate.Proofs.FileSystem.Places

/-!
# Writing in pieces

Bytes that are written piece by piece end up where one write of all of them puts them. If there is
no room for them, then both leave as many as there was room for.
-/

namespace DeviceUpdate

namespace FileSystem

variable {fs fs' : FileSystem}

lemma overwrite_behind (front rest new : Bytes) :
    overwrite (front ++ rest) front.length new = front ++ new ++ rest.drop new.length := by
  have hgap : front.length - (front ++ rest).length = 0 := by
    rw [List.length_append]
    omega
  rw [overwrite, hgap, List.take_left, List.drop_append,
    List.drop_eq_nil_of_le (Nat.le_add_right _ _), Nat.add_sub_cancel_left]
  simp

/-- What is written behind a piece joins it. -/
lemma overwrite_overwrite (old a b : Bytes) (offset : Nat) :
    overwrite (overwrite old offset a) (offset + a.length) b = overwrite old offset (a ++ b) := by
  generalize hfront : old.take offset ++ List.replicate (offset - old.length) 0 = front
  have hlength : front.length = offset := by
    rw [← hfront, List.length_append, List.length_take, List.length_replicate]
    omega
  have hends : offset + a.length = (front ++ a).length := by rw [List.length_append, hlength]
  have hfirst : overwrite old offset a = front ++ a ++ old.drop (offset + a.length) := by
    rw [overwrite, hfront]
  calc overwrite (overwrite old offset a) (offset + a.length) b
      = overwrite (front ++ a ++ old.drop (offset + a.length)) (front ++ a).length b := by
        rw [hfirst, hends]
    _ = front ++ a ++ b ++ (old.drop (offset + a.length)).drop b.length := overwrite_behind _ _ _
    _ = front ++ (a ++ b) ++ old.drop (offset + (a ++ b).length) := by
        rw [List.drop_drop, List.length_append, Nat.add_assoc, List.append_assoc front]
    _ = overwrite old offset (a ++ b) := by rw [overwrite, hfront]

lemma write_nil (fs : FileSystem) (h : Handle) : fs.write h [] = .ok (h, fs) := rfl

/-- A write goes by what the handle leads to. -/
lemma write_of_node? {h : Handle} {bytes : Bytes} (ne : bytes ≠ []) :
    fs.write h bytes =
      match fs.node? h.node with
      | some (.file old executable) =>
        if fs.takes bytes.length then
          .ok (⟨h.node, h.offset + bytes.length⟩,
            (fs.setNode h.node (.file (overwrite old h.offset bytes) executable)).spend
              bytes.length)
        else .error .deviceFull
      | some (.device .full) => .error .deviceFull
      | _ => .ok (⟨h.node, h.offset + bytes.length⟩, fs) := by
  unfold write
  exact if_neg (by simpa using ne)

/-- Behind bytes that were written, others are written as if all came at once. -/
lemma write_append {h h' : Handle} {a : Bytes} (write : fs.write h a = .ok (h', fs'))
    (b : Bytes) : fs.write h (a ++ b) = fs'.write h' b := by
  by_cases hb : b = []
  · rw [hb, List.append_nil, write, write_nil]
  by_cases ha : a = []
  · subst ha
    obtain ⟨rfl, rfl⟩ := Prod.mk.inj (Except.ok.inj ((write_nil fs h).symm.trans write))
    rfl
  cases writes_of_write write with
  | nothing hempty => exact absurd hempty ha
  | @rewritten old x hnode htakes =>
    have hafter : (fs.setNode h.node (.file (overwrite old h.offset a) x)).node? h.node =
        some (.file (overwrite old h.offset a) x) := by
      rw [node?_setNode hnode, if_pos rfl]
    have hroom := takes_spend (m := b.length) htakes
    rw [← List.length_append] at hroom
    rw [write_of_node? (by simp [hb]), write_of_node? hb]
    simp only [hnode, hafter, node?_spend]
    rw [overwrite_overwrite, ← hroom]
    simp [setNode, spend, FileSystem.takes, Function.comp_def, Nat.sub_sub, Nat.add_assoc]
  | lost hother =>
    rw [write_of_node? (by simp [hb]), write_of_node? hb]
    rw [write_of_node? ha] at write
    dsimp only
    cases hnode : fs.node? h.node with
    | none => simp [Nat.add_assoc]
    | some node =>
      cases node with
      | file old x => exact absurd hnode (hother old x)
      | device kind => cases kind <;> simp_all [Nat.add_assoc]
      | _ => simp [Nat.add_assoc]

/-- What does not take bytes is a device, or a file without the room. -/
inductive Fails (fs : FileSystem) (h : Handle) (bytes : Bytes) : Prop
  | device (full : fs.node? h.node = some (.device .full))
  | file {old : Bytes} {x : Bool} {room : Nat} (holds : fs.node? h.node = some (.file old x))
      (has : fs.room = some room) (short : room < bytes.length)

lemma write_error_iff {h : Handle} {bytes : Bytes} {e : FileError} :
    fs.write h bytes = .error e ↔ bytes ≠ [] ∧ e = .deviceFull ∧ fs.Fails h bytes := by
  by_cases hbytes : bytes = []
  · simp [hbytes, write_nil]
  rw [write_of_node? hbytes]
  constructor
  · intro fails
    split at fails
    · rename_i old x hnode
      split at fails
      · cases fails
      · rename_i htakes
        cases hroom : fs.room with
        | none => simp [FileSystem.takes, hroom] at htakes
        | some room =>
          have hshort : room < bytes.length := by simpa [FileSystem.takes, hroom] using htakes
          exact ⟨hbytes, (Except.error.inj fails).symm, .file hnode hroom hshort⟩
    · rename_i hnode
      exact ⟨hbytes, (Except.error.inj fails).symm, .device hnode⟩
    · cases fails
  · rintro ⟨-, rfl, hfails⟩
    cases hfails with
    | device hfull => rw [hfull]
    | file hnode hroom hshort =>
      have htakes : ¬ fs.takes bytes.length := by simpa [FileSystem.takes, hroom] using hshort
      simp only [hnode, htakes]
      rfl

/-- What does not take the first bytes does not take more, and is left the same. -/
lemma spill_of_error {h : Handle} {a : Bytes} {e : FileError} (fails : fs.write h a = .error e)
    (b : Bytes) : fs.write h (a ++ b) = .error e ∧ fs.spill h (a ++ b) = fs.spill h a := by
  obtain ⟨ha, rfl, hfails⟩ := write_error_iff.mp fails
  cases hfails with
  | device hfull =>
    refine ⟨write_error_iff.mpr ⟨by simp [ha], rfl, .device hfull⟩, ?_⟩
    have hleft (bytes : Bytes) : fs.spill h bytes = fs := by
      unfold spill
      split
      · rfl
      · rename_i room hroom
        by_cases hnone : bytes.take room = []
        · rw [hnone, write_nil]
        · rw [write_error_iff.mpr ⟨hnone, rfl, .device hfull⟩]
    rw [hleft, hleft]
  | @file old x room hnode hroom hshort =>
    refine ⟨write_error_iff.mpr ⟨by simp [ha], rfl, .file hnode hroom ?_⟩, ?_⟩
    · rw [List.length_append]
      omega
    · rw [spill, spill, hroom]
      dsimp only
      rw [List.take_append_of_le_length (Nat.le_of_lt hshort)]

/-- A file that has room left had it before, and had room for what was written. -/
lemma room_of_write {h h' : Handle} {a old : Bytes} {x : Bool} {room : Nat}
    (write : fs.write h a = .ok (h', fs')) (file : fs'.node? h'.node = some (.file old x))
    (has : fs'.room = some room) : fs.room = some (a.length + room) := by
  cases writes_of_write write with
  | nothing hempty => rw [has, hempty, List.length_nil, Nat.zero_add]
  | rewritten hnode htakes =>
    obtain ⟨before, hbefore, hleft⟩ : ∃ before, fs.room = some before ∧ before - a.length = room :=
      Option.map_eq_some_iff.mp has
    have hle : a.length ≤ before := by simpa [FileSystem.takes, hbefore] using htakes
    rw [hbefore, ← hleft, Nat.add_sub_cancel' hle]
  | lost hother => exact absurd file (hother old x)

/-- What takes the first bytes only is left as by a write of the others behind them. -/
lemma spill_append {h h' : Handle} {a b : Bytes} {e : FileError}
    (write : fs.write h a = .ok (h', fs')) (fails : fs'.write h' b = .error e) :
    fs.spill h (a ++ b) = fs'.spill h' b := by
  by_cases ha : a = []
  · subst ha
    obtain ⟨rfl, rfl⟩ := Prod.mk.inj (Except.ok.inj ((write_nil fs h).symm.trans write))
    rfl
  obtain ⟨-, rfl, hfails⟩ := write_error_iff.mp fails
  cases hfails with
  | device hfull =>
    -- a device that is full would not have taken the first bytes
    have hbefore : fs.Fails h a := by
      cases writes_of_write write with
      | nothing hempty => exact absurd hempty ha
      | rewritten hnode => simp [node?_setNode hnode] at hfull
      | lost hother => exact .device hfull
    rw [write_error_iff.mpr ⟨ha, rfl, hbefore⟩] at write
    cases write
  | @file old x room holds hroom hshort =>
    have hfits : fs'.takes (b.take room).length := by
      rw [FileSystem.takes, hroom]
      exact decide_eq_true (List.length_take_le room b)
    obtain ⟨h₁, fs₁, hpart⟩ := write_file holds hfits
    rw [spill, spill, room_of_write write holds hroom, hroom]
    dsimp only
    rw [List.take_length_add_append, write_append write, hpart]

/-- Writes one piece after the other, until one cannot be written. -/
def writePieces : FileSystem → Handle → List Bytes → Except FileError Handle × FileSystem
  | fs, h, [] => (.ok h, fs)
  | fs, h, piece :: rest =>
    match fs.write h piece with
    | .error e => (.error e, fs.spill h piece)
    | .ok (h, fs) => writePieces fs h rest

/-- The result of one write, with the files that are left. -/
def written (fs : FileSystem) (h : Handle) (bytes : Bytes) :
    Except FileError Handle × FileSystem :=
  match fs.write h bytes with
  | .error e => (.error e, fs.spill h bytes)
  | .ok (h, fs) => (.ok h, fs)

/-- Bytes that come behind others are written behind them. -/
lemma written_append (fs : FileSystem) (h : Handle) (a b : Bytes) :
    fs.written h (a ++ b) =
      match fs.write h a with
      | .error e => (.error e, fs.spill h a)
      | .ok (h, fs) => fs.written h b := by
  rw [written]
  cases ha : fs.write h a with
  | error e =>
    obtain ⟨hfails, hleft⟩ := spill_of_error ha b
    rw [hfails, hleft]
  | ok opened =>
    obtain ⟨h', fs'⟩ := opened
    dsimp only
    rw [write_append ha, written]
    cases hb : fs'.write h' b with
    | error e => rw [spill_append ha hb]
    | ok opened => rfl

/-- Piece by piece or at once, the same is written. -/
theorem writePieces_eq (fs : FileSystem) (h : Handle) (pieces : List Bytes) :
    writePieces fs h pieces = fs.written h pieces.flatten := by
  induction pieces generalizing fs h with
  | nil => rfl
  | cons piece rest ih =>
    rw [List.flatten_cons, written_append, writePieces]
    cases fs.write h piece with
    | error e => rfl
    | ok opened => exact ih opened.2 opened.1

end FileSystem

end DeviceUpdate
