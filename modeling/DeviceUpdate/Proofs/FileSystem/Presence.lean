import DeviceUpdate.Proofs.FileSystem.Removal

/-!
# What is at a path

Opening, writing and removing files never makes a directory. So what was opened for writing at a
path can be removed, and is gone then.
-/

namespace DeviceUpdate.FileSystem

variable {fs fs' : FileSystem} {path other : String}

/-- Something that is no directory is at the path. -/
def Stands (fs : FileSystem) (path : String) : Prop :=
  fs.exists? path = true ∧ fs.isDirectory path = false

lemma not_directory_of_gone (gone : fs.exists? path = false) :
    fs.isDirectory path = false := by
  cases hdirectory : fs.isDirectory path with
  | false => rfl
  | true =>
    obtain ⟨i, -, -, hfind, -⟩ := isDirectory_iff.mp hdirectory
    rw [exists?_iff.mpr ⟨i, hfind⟩] at gone
    cases gone

lemma exists?_of_keeps (h : Keeps fs fs' path) : fs'.exists? path = fs.exists? path := by
  rw [exists?, exists?, h.find]

/-- What stands at a path can be read. -/
lemma stands_iff_read : fs.Stands path ↔ ∃ bytes, fs.read path = .ok bytes := by
  unfold Stands exists? isDirectory FileSystem.read content
  cases hfind : fs.find path with
  | error e => simp
  | ok i => cases hnode : fs.node? i with
    | none => simp [hnode]
    | some node => cases node <;> simp [hnode]

lemma Gathers.stands {h : Handle} {content : Bytes} (gathers : fs.Gathers path h content)
    (plain : fs.isDirectory path = false) : fs.Stands path :=
  ⟨exists?_iff.mpr ⟨_, gathers.find⟩, plain⟩

/-! ### Nothing makes a directory -/

/-- Every path that leads to a directory led to one before. -/
def Tame (fs fs' : FileSystem) : Prop :=
  ∀ path, fs'.isDirectory path = true → fs.isDirectory path = true

namespace Tame

variable {fs'' : FileSystem}

lemma refl (fs : FileSystem) : Tame fs fs := fun _ h => h

lemma trans (h : Tame fs fs') (k : Tame fs' fs'') : Tame fs fs'' :=
  fun path hp => h path (k path hp)

lemma plain (h : Tame fs fs') (plain : fs.isDirectory path = false) :
    fs'.isDirectory path = false := by
  cases hd : fs'.isDirectory path with
  | false => rfl
  | true => rw [h path hd] at plain; cases plain

end Tame

/-- Every path leads where it led, or nowhere any more, and nothing becomes a directory. -/
structure Wanes (fs fs' : FileSystem) : Prop where
  find : ∀ path, fs'.find path = fs.find path ∨ fs'.find path = .error .notFound
  directory : ∀ i, (∃ parent lookup, fs'.view i = .directory parent lookup) →
    ∃ parent lookup, fs.view i = .directory parent lookup

namespace Wanes

variable {fs'' : FileSystem}

lemma refl (fs : FileSystem) : Wanes fs fs := ⟨fun _ => .inl rfl, fun _ h => h⟩

lemma trans (h : Wanes fs fs') (k : Wanes fs' fs'') : Wanes fs fs'' := by
  refine ⟨fun path => ?_, fun i hi => h.directory i (k.directory i hi)⟩
  rcases k.find path with hsame | hgone
  · rw [hsame]
    exact h.find path
  · exact .inr hgone

lemma tame (h : Wanes fs fs') : Tame fs fs' := by
  intro path hdirectory
  obtain ⟨i, parent, lookup, hfind, hview⟩ := isDirectory_iff.mp hdirectory
  obtain ⟨parent', lookup', hview'⟩ := h.directory i ⟨parent, lookup, hview⟩
  rcases h.find path with hsame | hgone
  · exact isDirectory_iff.mpr ⟨i, parent', lookup', hsame.symm.trans hfind, hview'⟩
  · rw [hgone] at hfind
    cases hfind

end Wanes

lemma Alike.wanes (h : Alike fs fs') : Wanes fs fs' := by
  refine ⟨fun path => .inl (h.find path), fun i ⟨parent, lookup, hview⟩ => ?_⟩
  exact ⟨parent, lookup, (h.view i).symm.trans hview⟩

lemma Alike.tame (h : Alike fs fs') : Tame fs fs' := h.wanes.tame

/-- A node that one file system lacks an entry for is seen alike in both. -/
lemma Lacks.directory_iff {d next i : Nat} {name : String} (h : Lacks fs fs' d name next) :
    (∃ parent lookup, fs'.view i = .directory parent lookup) ↔
      ∃ parent lookup, fs.view i = .directory parent lookup := by
  rcases h.view_cases i with ⟨hsame, -⟩ | ⟨parent, lookup, lookup', hview, hview', -⟩
  · rw [hsame]
  · exact ⟨fun _ => ⟨parent, lookup, hview⟩, fun _ => ⟨parent, lookup', hview'⟩⟩

lemma tame_addFile {d : Nat} {name : String} (h : fs.Holds (.vacant d name)) :
    Tame fs (fs.addFile d name) := by
  intro path hdirectory
  obtain ⟨i, parent, lookup, hfind, hview⟩ := isDirectory_iff.mp hdirectory
  have hlacks := lacks_addFile h
  have hleaf : (fs.addFile d name).view fs.nodes.size = .leaf := by
    obtain ⟨parent', lookup', hd, -⟩ := h
    obtain ⟨entries, hnode, -⟩ := view_directory hd
    rw [view, node?_addFile hnode, if_neg (Nat.ne_of_lt (lt_of_node? hnode)), if_pos rfl]
  obtain ⟨entry, hfound⟩ := resolve_of_find hfind
  have hsame : fs.resolve true path = .ok (.found i entry) := by
    have hapart := hlacks.resolve true path
    rw [hfound] at hapart
    generalize fs.resolve true path = r at hapart ⊢
    cases hapart with
    | elsewhere found vacant => rfl
    | through behind =>
      rw [walkBehind_leaf_cons hleaf] at behind
      cases behind
    | ends behind =>
      rw [walkBehind_leaf hleaf] at behind
      obtain ⟨rfl, -⟩ : i = fs.nodes.size ∧ _ := by simpa using behind
      rw [hleaf] at hview
      cases hview
  obtain ⟨parent', lookup', hview'⟩ := hlacks.directory_iff.mpr ⟨parent, lookup, hview⟩
  exact isDirectory_iff.mpr ⟨i, parent', lookup', by rw [find, hsame], hview'⟩

lemma tame_of_create {h : Handle} (create : fs.create path = .ok (h, fs')) : Tame fs fs' := by
  cases creates_of_create create with
  | made hvacant => exact tame_addFile (holds_of_resolve hvacant)
  | emptied find hnode => exact (alike_setNode hnode).tame
  | kept find hnode => exact .refl fs

lemma Alike.stands (h : Alike fs fs') (stands : fs.Stands path) : fs'.Stands path := by
  refine ⟨?_, h.tame.plain stands.2⟩
  obtain ⟨i, hfind⟩ := exists?_iff.mp stands.1
  exact exists?_iff.mpr ⟨i, (h.find path).trans hfind⟩

lemma wanes_of_remove (remove : fs.remove path = .ok fs') : Wanes fs fs' := by
  obtain ⟨j, d, name, -, -, -, hlacks⟩ := lacks_of_remove remove
  exact ⟨find_of_remove remove, fun i => hlacks.directory_iff.mp⟩

lemma wanes_removeIfPossible (fs : FileSystem) (path : String) :
    Wanes fs (fs.removeIfPossible path) := by
  unfold removeIfPossible
  split
  · rename_i fs' hremove
    exact wanes_of_remove hremove
  · exact .refl fs

/-! ### What was opened for writing -/

/-- What was opened for writing is no directory. -/
lemma stands_of_create {h : Handle} (create : fs.create path = .ok (h, fs')) :
    fs'.Stands path := by
  refine (gathers_of_create create).stands ?_
  cases creates_of_create create with
  | made hvacant =>
    obtain ⟨hresolve, hnode⟩ := resolve_addFile hvacant
    simp [isDirectory, find, hresolve, hnode]
  | emptied hfind hnode =>
    simp [isDirectory, (alike_setNode hnode).find, hfind, node?_setNode hnode]
  | @kept i hfind hother =>
    cases hdirectory : fs.isDirectory path with
    | false => rfl
    | true =>
      obtain ⟨j, parent, lookup, hfind', hview⟩ := isDirectory_iff.mp hdirectory
      obtain rfl : i = j := by simpa [hfind] using hfind'
      obtain ⟨entries, hnode, -⟩ := view_directory hview
      obtain ⟨entry, hfound⟩ := resolve_of_find hfind
      simp [FileSystem.create, hfound, hnode] at create

/-- A walk with a dot at the end ends at a directory. -/
lemma directory_of_walkNames {follow : Bool} {jump : Nat → List String → Except FileError Place}
    (jumps : ∀ start names i entry, jump start (names ++ ["."]) = .ok (.found i entry) →
      ∃ parent lookup, fs.view i = .directory parent lookup) {here i : Nat}
    {entry entry' : Option (Nat × String)} {names : List String}
    (h : fs.walkNames follow jump here entry (names ++ ["."]) = .ok (.found i entry')) :
    ∃ parent lookup, fs.view i = .directory parent lookup := by
  induction names generalizing here entry with
  | nil =>
    rw [List.nil_append, walkNames_cons] at h
    simp only [if_true, walkNames_nil] at h
    grind
  | cons other rest ih =>
    rw [List.cons_append, walkNames_cons] at h
    split at h
    · split at h
      · exact ih h
      · split at h
        · exact ih h
        · split at h
          · simp at h
          · split at h
            · simp at h
            · unfold walkBehind at h
              split at h
              · simp only [List.append_eq_nil_iff, List.isEmpty_iff, List.cons_ne_self,
                  Bool.and_eq_true, and_false, false_and, if_false] at h
                rw [← List.append_assoc] at h
                exact jumps _ _ _ _ h
              · exact ih h
    · simp at h

lemma directory_of_resolve {follow : Bool} {names : List String} {i : Nat}
    {entry : Option (Nat × String)} (last : Path.components path = names ++ ["."])
    (h : fs.resolve follow path = .ok (.found i entry)) :
    ∃ parent lookup, fs.view i = .directory parent lookup := by
  rw [resolve_of_ok h, last] at h
  generalize linkLimit = links at h
  generalize (if Path.isAbsolute path then fs.root else fs.current) = start at h
  clear last
  induction links generalizing start names i entry with
  | zero => exact directory_of_walkNames (by simp) h
  | succ links ih => exact directory_of_walkNames (fun start _ _ _ hj => ih start hj) h

/-- The last name of the path does not lead upwards. -/
def Named (path : String) : Prop :=
  ∃ names name, Path.components path = names ++ [name] ∧ name ≠ ".."

/-- What stands at a path can be removed. -/
lemma remove_of_stands (named : Named path) (stands : fs.Stands path) :
    ∃ fs', fs.remove path = .ok fs' := by
  obtain ⟨names, name, last, up⟩ := named
  obtain ⟨i, hfind⟩ := exists?_iff.mp stands.1
  obtain ⟨entry, hfound⟩ := resolve_of_find hfind
  have hplain (parent : Nat) (lookup : String → Option Nat) :
      fs.view i ≠ .directory parent lookup := fun hview => by
    have hdirectory := isDirectory_iff.mpr ⟨i, parent, lookup, hfind, hview⟩
    rw [stands.2] at hdirectory
    cases hdirectory
  obtain ⟨j, entry', hfirst, hnode⟩ : ∃ j entry', fs.resolve false path = .ok (.found j entry') ∧
      ∀ parent lookup, fs.view j ≠ .directory parent lookup := by
    have hfollows := follows_of_resolve fs path
    rw [hfound] at hfollows
    generalize fs.resolve false path = first at hfollows ⊢
    cases hfollows with
    | same plain => exact ⟨i, entry, rfl, hplain⟩
    | link view on => exact ⟨_, _, rfl, by simp [view]⟩
  obtain ⟨d, rfl⟩ : ∃ d, entry' = some (d, name) := by
    rcases ends_of_resolve last hfirst with hd | ⟨-, rfl | rfl⟩
    · exact hd
    · obtain ⟨parent, lookup, hview⟩ := directory_of_resolve last hfirst
      exact absurd hview (hnode parent lookup)
    · exact absurd rfl up
  refine ⟨fs.removeEntry d name, ?_⟩
  unfold remove
  rw [hfirst]
  dsimp only
  split
  · rename_i parent entries hdirectory
    exact absurd (show fs.view j = .directory parent (entries.lookup ·) by simp [view, hdirectory])
      (hnode _ _)
  · rename_i hsome _
    obtain ⟨rfl, rfl⟩ := Prod.mk.inj (Option.some.inj hsome)
    rfl
  · rename_i hnone _
    cases hnone

lemma gone_of_remove (remove : fs.remove path = .ok fs') : fs'.exists? path = false := by
  obtain ⟨i, d, name, hfirst, -, -, hlacks⟩ := lacks_of_remove remove
  cases hexists : fs'.exists? path with
  | false => rfl
  | true =>
    obtain ⟨j, hfind⟩ := exists?_iff.mp hexists
    obtain ⟨entry, hfound⟩ := resolve_of_find hfind
    have hfollows := follows_of_resolve fs' path
    have hapart := hlacks.resolve false path
    rw [hfound] at hfollows
    rw [hfirst] at hapart
    generalize fs'.resolve false path = first at hfollows hapart
    cases hapart with
    | elsewhere found vacant => exact absurd rfl (found i)
    | through behind => cases hfollows
    | ends behind => cases hfollows

lemma gone_removeIfPossible (gone : fs.exists? path = false) (other : String) :
    (fs.removeIfPossible other).exists? path = false := by
  obtain ⟨e, hfind⟩ := not_exists?_iff.mp gone
  rcases removeIfPossible_keeps fs other path with hkeeps | hgone
  · rw [exists?_of_keeps hkeeps, gone]
  · exact not_exists?_iff.mpr ⟨_, hgone⟩

/-- Removing takes away what is no directory. -/
theorem gone_of_removeIfPossible (named : Named path) (plain : fs.isDirectory path = false) :
    (fs.removeIfPossible path).exists? path = false := by
  cases hexists : fs.exists? path with
  | false => exact gone_removeIfPossible hexists path
  | true =>
    obtain ⟨fs', hremove⟩ := remove_of_stands named ⟨hexists, plain⟩
    rw [removeIfPossible_of_ok hremove]
    exact gone_of_remove hremove

end DeviceUpdate.FileSystem
