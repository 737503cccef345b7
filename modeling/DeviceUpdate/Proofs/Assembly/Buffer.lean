import DeviceUpdate.Proofs.Assembly
import Mathlib.Algebra.GroupWithZero.Nat

/-!
# The loop of the checksum

The checksum of a file is taken through a buffer that every read fills anew from its front. A read
may bring fewer bytes than there is room for; what stood behind them in the buffer stays, and is not
to be taken in again. However the reads cut the file, the loop ends with the checksum of the whole
content.
-/

namespace DeviceUpdate

/-- The loop between two reads: the buffer, the register, and what of the file lies ahead. -/
structure Scan where
  buffer : Bytes
  register : UInt32
  ahead : Bytes

namespace Scan

/-- What a read may bring: as many bytes as there is room for, or fewer. It brings none only at the
end of the file, or if there is no room. -/
structure Brings (s : Scan) (count : Nat) : Prop where
  room : count ≤ s.buffer.length
  within : count ≤ s.ahead.length
  stops : count = 0 ↔ s.buffer = [] ∨ s.ahead = []

/-- The buffer after a read, which has put its bytes to the front. -/
def filled (s : Scan) (count : Nat) : Bytes := s.ahead.take count ++ s.buffer.drop count

/-- The front of the buffer is taken into the register. -/
def turned (s : Scan) (count : Nat) : Scan where
  buffer := s.filled count
  register := Crc32.update s.register ((s.filled count).take count)
  ahead := s.ahead.drop count

/-- A turn of the loop. -/
inductive Turn (s : Scan) : Scan → Prop
  | read {count : Nat} (brings : s.Brings count) (some : count ≠ 0) : Turn s (s.turned count)

/-- With reads of these sizes, the loop ends with this checksum. -/
inductive Returns : Scan → List Nat → UInt32 → Prop
  | ends {s : Scan} (brings : s.Brings 0) : Returns s [] (Crc32.finish s.register)
  | turn {s : Scan} {count : Nat} {sizes : List Nat} {checksum : UInt32} (brings : s.Brings count)
      (some : count ≠ 0) (rest : Returns (s.turned count) sizes checksum) :
      Returns s (count :: sizes) checksum

/-- The sizes cut `length` bytes into pieces of one byte at least and `room` bytes at most. -/
def Cuts (room length : Nat) (sizes : List Nat) : Prop :=
  sizes.sum = length ∧ ∀ size ∈ sizes, 1 ≤ size ∧ size ≤ room

variable {s t : Scan} {count : Nat} {sizes : List Nat} {checksum : UInt32}

/-! ### One turn -/

lemma Brings.length_filled (h : s.Brings count) : (s.filled count).length = s.buffer.length := by
  have hroom := h.room
  rw [filled, List.length_append, List.length_take_of_le h.within, List.length_drop]
  omega

/-- Nothing that stood in the buffer before is taken in. -/
lemma Brings.take_filled (h : s.Brings count) : (s.filled count).take count = s.ahead.take count :=
  List.take_left' (List.length_take_of_le h.within)

/-- What is in the register and what is ahead make up the same content all along. -/
lemma Brings.update_turned (h : s.Brings count) :
    Crc32.update (s.turned count).register (s.turned count).ahead =
      Crc32.update s.register s.ahead := by
  rw [turned, h.take_filled, ← Crc32.update_append, List.take_append_drop]

lemma brings_zero_iff : s.Brings 0 ↔ s.buffer = [] ∨ s.ahead = [] :=
  ⟨fun h => h.stops.mp rfl, fun h => ⟨Nat.zero_le _, Nat.zero_le _, iff_of_true rfl h⟩⟩

lemma brings_iff (some : count ≠ 0) :
    s.Brings count ↔ count ≤ s.buffer.length ∧ count ≤ s.ahead.length := by
  refine ⟨fun h => ⟨h.room, h.within⟩, fun ⟨room, within⟩ => ⟨room, within, ?_⟩⟩
  refine iff_of_false some ?_
  rintro (h | h)
  · rw [h] at room
    exact some (Nat.le_zero.mp room)
  · rw [h] at within
    exact some (Nat.le_zero.mp within)

/-- The loop can always go on, unless it ends. -/
lemma ends_or_turns (s : Scan) : s.Brings 0 ∨ ∃ t, s.Turn t := by
  by_cases hends : s.buffer = [] ∨ s.ahead = []
  · exact .inl (brings_zero_iff.mpr hends)
  · rw [not_or] at hends
    refine .inr ⟨_, .read ((brings_iff Nat.one_ne_zero).mpr ⟨?_, ?_⟩) Nat.one_ne_zero⟩
    · exact List.length_pos_iff.mpr hends.1
    · exact List.length_pos_iff.mpr hends.2

lemma Turn.length_lt (h : s.Turn t) : t.ahead.length < s.ahead.length := by
  obtain ⟨brings, some⟩ := h
  have hwithin := brings.within
  rw [turned, List.length_drop]
  omega

/-- The loop does not go on for ever. -/
lemma wellFounded_turn : WellFounded fun t s : Scan => s.Turn t :=
  Subrelation.wf Turn.length_lt (InvImage.wf (fun s : Scan => s.ahead.length) Nat.lt_wfRel.wf)

/-! ### Whole runs -/

lemma returns_nil_iff :
    Returns s [] checksum ↔ s.Brings 0 ∧ checksum = Crc32.finish s.register := by
  constructor
  · rintro ⟨brings⟩
    exact ⟨brings, rfl⟩
  · rintro ⟨brings, rfl⟩
    exact .ends brings

lemma returns_cons_iff :
    Returns s (count :: sizes) checksum ↔
      s.Brings count ∧ count ≠ 0 ∧ Returns (s.turned count) sizes checksum := by
  constructor
  · rintro (_ | ⟨brings, some, rest⟩)
    exact ⟨brings, some, rest⟩
  · rintro ⟨brings, some, rest⟩
    exact .turn brings some rest

lemma cuts_nil_iff {room length : Nat} : Cuts room length [] ↔ length = 0 := by
  simp [Cuts, eq_comm]

lemma cuts_cons_iff {room length : Nat} : Cuts room length (count :: sizes) ↔
    (count ≠ 0 ∧ count ≤ room ∧ count ≤ length) ∧ Cuts room (length - count) sizes := by
  simp only [Cuts, List.sum_cons, List.forall_mem_cons]
  constructor
  · rintro ⟨sum, ⟨some, fits⟩, others⟩
    exact ⟨⟨by omega, fits, by omega⟩, by omega, others⟩
  · rintro ⟨⟨some, fits, within⟩, sum, others⟩
    exact ⟨by omega, ⟨by omega, fits⟩, others⟩

/-- Through a buffer with room, the sizes cut what is ahead, and the checksum is that of all. -/
lemma returns_iff (room : s.buffer ≠ []) :
    Returns s sizes checksum ↔ Cuts s.buffer.length s.ahead.length sizes ∧
      checksum = Crc32.finish (Crc32.update s.register s.ahead) := by
  induction sizes generalizing s with
  | nil =>
    rw [returns_nil_iff, brings_zero_iff, or_iff_right room, cuts_nil_iff,
      List.length_eq_zero_iff]
    refine and_congr_right fun hend => ?_
    rw [hend]
    rfl
  | cons count sizes ih =>
    rw [returns_cons_iff, cuts_cons_iff, and_assoc]
    constructor
    · rintro ⟨brings, some, rest⟩
      have hroom : (s.turned count).buffer.length = s.buffer.length := brings.length_filled
      rw [ih (List.ne_nil_of_length_pos (hroom ▸ List.length_pos_iff.mpr room)), hroom,
        brings.update_turned] at rest
      rw [← List.length_drop]
      exact ⟨⟨some, brings.room, brings.within⟩, rest⟩
    · rintro ⟨⟨some, fits, within⟩, rest⟩
      have brings := (brings_iff some).mpr ⟨fits, within⟩
      have hroom : (s.turned count).buffer.length = s.buffer.length := brings.length_filled
      refine ⟨brings, some, ?_⟩
      rw [ih (List.ne_nil_of_length_pos (hroom ▸ List.length_pos_iff.mpr room)), hroom,
        brings.update_turned]
      rwa [← List.length_drop] at rest

/-! ### Files -/

/-- Any content can be cut, byte by byte if need be. -/
lemma exists_cuts {room : Nat} (some : 0 < room) (length : Nat) :
    ∃ sizes, Cuts room length sizes := by
  refine ⟨List.replicate length 1, by simp, fun size hsize => ?_⟩
  obtain rfl := List.eq_of_mem_replicate hsize
  exact ⟨Nat.le_refl 1, some⟩

/-- Whatever the reads bring, the loop ends with the checksum that reading in full buffers comes
to. -/
lemma exists_returns_iff {buffer content : Bytes} :
    (∃ sizes, Returns ⟨buffer, Crc32.start, content⟩ sizes checksum) ↔
      Crc32.finish (checksumReads buffer.length Crc32.start content) = checksum := by
  by_cases room : buffer = []
  · subst room
    rw [checksumReads, dif_neg (by simp)]
    constructor
    · rintro ⟨_, brings | ⟨brings, some, -⟩⟩
      · rfl
      · exact absurd (Nat.le_zero.mp brings.room) some
    · rintro rfl
      exact ⟨[], .ends (brings_zero_iff.mpr (.inl rfl))⟩
  · have hroom : 0 < buffer.length := List.length_pos_iff.mpr room
    rw [checksumReads_eq hroom]
    constructor
    · rintro ⟨sizes, returns⟩
      exact ((returns_iff room).mp returns).2.symm
    · rintro rfl
      obtain ⟨sizes, hcuts⟩ := exists_cuts hroom content.length
      exact ⟨sizes, (returns_iff room).mpr ⟨hcuts, rfl⟩⟩

lemma fileChecksum_eq_ok_iff {fs : FileSystem} {path : String} {buffer : Bytes} :
    fileChecksum fs path buffer.length = .ok checksum ↔ ∃ content sizes,
      fs.read path = .ok content ∧ Returns ⟨buffer, Crc32.start, content⟩ sizes checksum := by
  simp only [exists_and_left, exists_returns_iff, fileChecksum]
  cases fs.read path with
  | ok content => simp
  | error e => simp

/-- All buffers with room give the same checksum, or the same reason why there is none. -/
lemma fileChecksum_congr {fs : FileSystem} {path : String} {n k : Nat} (hn : 0 < n) (hk : 0 < k) :
    fileChecksum fs path n = fileChecksum fs path k := by
  simp only [fileChecksum, checksumReads_eq hn, checksumReads_eq hk]

/-- The loop goes on until it ends, and with a buffer that has room it ends with the checksum of the
whole content, whatever is in the buffer at first and however the reads cut the file. So the
checksum of a file is the same through all buffers. -/
theorem checksum_whatever_reads :
    (WellFounded fun t s : Scan => s.Turn t) ∧
    (∀ s : Scan, s.Brings 0 ∨ ∃ t, s.Turn t) ∧
    (∀ (buffer content : Bytes) (sizes : List Nat) (checksum : UInt32), buffer ≠ [] →
      (Returns ⟨buffer, Crc32.start, content⟩ sizes checksum ↔
        Cuts buffer.length content.length sizes ∧ checksum = crc32 content)) ∧
    (∀ (fs : FileSystem) (path : String) (buffer : Bytes) (checksum : UInt32),
      fileChecksum fs path buffer.length = .ok checksum ↔ ∃ content sizes,
        fs.read path = .ok content ∧ Returns ⟨buffer, Crc32.start, content⟩ sizes checksum) ∧
    (∀ (fs : FileSystem) (path : String) (content : Bytes) (n : Nat),
      fs.read path = .ok content → 0 < n → fileChecksum fs path n = .ok (crc32 content)) ∧
    (∀ (fs : FileSystem) (path : String) (n k : Nat),
      0 < n → 0 < k → fileChecksum fs path n = fileChecksum fs path k) ∧
    ∀ (register : UInt32) (a b : Bytes),
      Crc32.update (Crc32.update register a) b = Crc32.update register (a ++ b) := by
  refine ⟨wellFounded_turn, ends_or_turns, fun buffer content sizes checksum room => ?_,
    fun fs path buffer checksum => fileChecksum_eq_ok_iff,
    fun fs path content n read room => fileChecksum_of_read room read,
    fun fs path n k hn hk => fileChecksum_congr hn hk,
    fun register a b => (Crc32.update_append register a b).symm⟩
  exact returns_iff room

/-- The digits from one to nine, read in three reads through a buffer of four bytes that holds
something else at first. The bytes that stay in the buffer behind short reads do not count. -/
theorem stale_bytes_do_not_count :
    let digits : Bytes := [0x31, 0x32, 0x33, 0x34, 0x35, 0x36, 0x37, 0x38, 0x39]
    let files : FileSystem := ⟨#[.directory 0 [("img", 1)], .file digits false], 0, 0, 1000, none⟩
    Returns ⟨[7, 7, 7, 7], Crc32.start, digits⟩ [3, 4, 2] 0xCBF43926 ∧
      fileChecksum files "img" 4 = .ok 0xCBF43926 ∧
      fileChecksum files "img" 1 = fileChecksum files "img" 4 := by
  intro digits files
  obtain ⟨-, -, hreturns, -, hread, hsame, -⟩ := checksum_whatever_reads
  have hchecksum : crc32 digits = 0xCBF43926 := by decide +kernel
  refine ⟨(hreturns [7, 7, 7, 7] digits [3, 4, 2] _ (by decide)).mpr ⟨?_, hchecksum.symm⟩, ?_,
    hsame files "img" 1 4 (by decide) (by decide)⟩
  · simp [Cuts, digits]
  · rw [← hchecksum]
    exact hread files "img" digits 4 rfl (by decide)

end Scan

end DeviceUpdate
