import DeviceUpdate.Proofs.Assembly
import DeviceUpdate.Proofs.Checksum

/-!
# Corrupted packages

A package is refused if its size is another one than the manifest gives. If the size is right and
some of the bits within 32 behind one another are wrong, then the checksum is, so such a package is
refused too.
-/

namespace DeviceUpdate.Assembly

open Crc32 (Burst)

variable {fs : FileSystem} {path : String} {m : Manifest} {p q : Bytes}

/-- A file that does not fit the manifest is refused for what it holds. -/
lemma verify_refuses (file : fs.isFile path) (read : fs.read path = .ok q)
    (misfit : q.length ≠ m.totalSize ∨ crc32 q ≠ m.checksum) :
    ∃ reason, verify fs path m = .error (.integrity reason) := by
  unfold FileSystem.isFile at file
  split at file
  · rename_i i hfind
    split at file
    · rename_i content x hnode
      rw [FileSystem.read, hfind] at read
      obtain rfl : content = q := Except.ok.inj ((FileSystem.content_file hnode).symm.trans read)
      rw [verify_file hfind hnode]
      split_ifs with hsize hchecksum
      · exact ⟨_, rfl⟩
      · exact ⟨_, rfl⟩
      · exact absurd misfit (by tauto)
    · cases file
  · cases file

/-- Where the manifest was made for one content, a file that holds another one is refused if it has
another length, or if it differs in one burst of up to 32 bits. -/
theorem corrupted_package_refused (file : fs.isFile path) (read : fs.read path = .ok q)
    (size : m.totalSize = p.length) (checksum : m.checksum = crc32 p)
    (corrupted : q.length ≠ p.length ∨ q.length = p.length ∧ q ≠ p ∧ Burst p q) :
    ∃ reason, verify fs path m = .error (.integrity reason) := by
  refine verify_refuses file read ?_
  rw [size, checksum]
  rcases corrupted with hlength | ⟨hlength, hne, hburst⟩
  · exact .inl hlength
  · exact .inr (crc32_ne_of_burst hlength.symm hne.symm hburst).symm

/-- An image in which two bits are wrong, the first and the last of 32 that lie in five bytes. -/
theorem wrong_bits_refused :
    let image : Bytes := [1, 2, 3, 4, 5, 6]
    let wrong : Bytes := [17, 2, 3, 4, 13, 6]
    let files : FileSystem :=
      ⟨#[.directory 0 [("img.swu", 1)], .file wrong false], 0, 0, 1000, none⟩
    files.isFile "img.swu" ∧ files.read "img.swu" = .ok wrong ∧ wrong ≠ image ∧
      Burst image wrong ∧
      ∃ reason, verify files "img.swu" ⟨6, 1, "img", crc32 image, "frag"⟩ =
        .error (.integrity reason) := by
  intro image wrong files
  have hburst : Burst image wrong := by
    have hwithin : ∀ i < 48, (Crc32.bits image)[i]? ≠ (Crc32.bits wrong)[i]? →
        4 ≤ i ∧ i < 4 + 32 := by decide +kernel
    refine ⟨4, fun i hi => hwithin i (Nat.lt_of_not_le fun hbeyond => hi ?_) hi⟩
    rw [List.getElem?_eq_none (by exact hbeyond), List.getElem?_eq_none (by exact hbeyond)]
  have hdiffer : wrong ≠ image := by decide
  exact ⟨rfl, rfl, hdiffer, hburst,
    corrupted_package_refused rfl rfl rfl rfl (.inr ⟨rfl, hdiffer, hburst⟩)⟩

end DeviceUpdate.Assembly
