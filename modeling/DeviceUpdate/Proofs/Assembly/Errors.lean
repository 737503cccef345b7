import DeviceUpdate.Proofs.Assembly.Traces
import DeviceUpdate.Proofs.Fragment.Search
import DeviceUpdate.Proofs.Manifest.Grammar

/-!
# Why an assembly fails

Assembly works on files alone, so it fails for the manifest, for a file, for a fragment, for room,
or for what came of it. Commands, timeouts and the boot layout are none of its reasons.
-/

namespace DeviceUpdate.Assembly

variable {archives : Archive.Reader} {fs fs' : FileSystem} {manifest directory path : String}
  {m : Manifest} {e : UpdateError}

/-- A reason for which an assembly may fail. -/
inductive Fault : UpdateError → Prop
  | manifest (reason : String) : Fault (.invalidManifest reason)
  | file (path : String) (cause : FileError) : Fault (.file path cause)
  | missing (index : Nat) (path : String) : Fault (.missingFragment index path)
  | archive (path reason : String) : Fault (.archive path reason)
  | unknownSpace (path : String) : Fault (.spaceUnavailable path)
  | space (path : String) (required available : Nat) :
      Fault (.insufficientSpace path required available)
  | integrity (reason : String) : Fault (.integrity reason)

/-- Assembly says nothing of the boot layout. -/
lemma Fault.category_ne (h : Fault e) : e.category ≠ .classifierUnknown := by
  cases h <;> rintro ⟨⟩

lemma fault_of_load (h : Manifest.load fs path = .error e) : Fault e := by
  unfold Manifest.load at h
  split at h
  · obtain ⟨reason, rfl⟩ := Manifest.ofText_refuses fs _ e h
    exact .manifest reason
  · obtain rfl := Except.error.inj h
    exact .file _ _

lemma fault_of_ensure {needed : Nat} (h : Space.ensure fs path needed = .error e) : Fault e := by
  unfold Space.ensure at h
  split at h
  · obtain rfl := Except.error.inj h
    exact .unknownSpace _
  · split at h
    · obtain rfl := Except.error.inj h
      exact .space _ _ _
    · cases h

lemma Refusal.fault (h : Refusal fs manifest directory e) : Fault e := by
  cases h with
  | manifest load => exact fault_of_load load
  | space load short => exact fault_of_ensure short
  | fragment load room missing =>
    obtain ⟨i, -, -, -, rfl⟩ := Fragment.locate_eq_error_iff.mp missing
    exact .missing _ _

lemma fault_of_append {h : Handle} {f : Fragment} {entry : String}
    (append : append fs h f entry = (.error e, fs')) : Fault e := by
  unfold Assembly.append at append
  split at append
  · obtain ⟨rfl, -⟩ := by simpa using append
    exact .file _ _
  · split at append
    · obtain ⟨rfl, -⟩ := by simpa using append
      exact .archive _ _
    · dsimp only at append
      split at append
      · obtain ⟨rfl, -⟩ := by simpa using append
        exact .archive _ _
      · split at append
        · cases append
        · obtain ⟨rfl, -⟩ := by simpa using append
          exact .archive _ _

lemma fault_of_appendAll {h : Handle} {fragments : List Fragment} {entry : String}
    (all : appendAll entry fs h fragments = (.error e, fs')) : Fault e := by
  induction fragments generalizing fs h with
  | nil => cases all
  | cons f rest ih =>
    rw [appendAll] at all
    split at all
    · rename_i happend
      obtain ⟨rfl, -⟩ := by simpa using all
      exact fault_of_append happend
    · exact ih all

lemma fault_of_verify (h : verify fs path m = .error e) : Fault e := by
  unfold verify at h
  split at h
  · obtain rfl := Except.error.inj h
    exact .file _ _
  · split at h
    · obtain rfl := Except.error.inj h
      exact .integrity _
    · split at h
      · rename_i hchecksum
        obtain rfl := Except.error.inj h
        unfold fileChecksum at hchecksum
        split at hchecksum
        · cases hchecksum
        · obtain rfl := Except.error.inj hchecksum
          exact .file _ _
      · split at h
        · obtain rfl := Except.error.inj h
          exact .integrity _
        · cases h

lemma fault_of_assemble {plan : AssemblyPlan} (h : assemble fs plan = (.error e, fs')) :
    Fault e := by
  cases assembles_of_assemble h with
  | unopened create => exact .file _ _
  | unappended create all => exact fault_of_appendAll all
  | unsynced create all sync => exact .file _ _
  | unverified create all sync verify => exact fault_of_verify verify

theorem fault_of_assembleFromManifest
    (h : assembleFromManifest fs manifest directory = (.error e, fs')) : Fault e := by
  unfold assembleFromManifest at h
  split at h
  · rename_i hplan
    obtain ⟨rfl, -⟩ := by simpa using h
    exact (refusal_iff.mpr hplan).fault
  · exact fault_of_assemble h

end DeviceUpdate.Assembly
