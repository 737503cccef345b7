import DeviceUpdate.Proofs.FileSystem.Presence

/-!
# What changes to files spare

`Edits` is any number of files opened for writing, written and removed, with the paths that were
opened and removed and the nodes that were written. What it spares is read off these: every path
that led elsewhere leads there still, and nothing else changes.
-/

namespace DeviceUpdate.FileSystem

variable {fs fs' : FileSystem} {path other : String} {follow : Bool}

/-! ### Places -/

/-- Both paths lead to one place, as two spellings of one path do. -/
def SamePlace (fs : FileSystem) (follow : Bool) (path other : String) : Prop :=
  ∃ i entry, fs.resolve follow path = .ok (.found i entry) ∧
    fs.resolve follow other = .ok (.found i entry)

lemma find_of_found {i : Nat} {entry : Option (Nat × String)}
    (h : fs.resolve true path = .ok (.found i entry)) : fs.find path = .ok i := by
  rw [find, h]

lemma read_eq_ok_iff {bytes : Bytes} : fs.read path = .ok bytes ↔
    ∃ i entry, fs.resolve true path = .ok (.found i entry) ∧ fs.content i = .ok bytes := by
  unfold read
  constructor
  · intro h
    split at h
    · rename_i i hfind
      obtain ⟨entry, hfound⟩ := resolve_of_find hfind
      exact ⟨i, entry, hfound, h⟩
    · cases h
  · rintro ⟨i, entry, hfound, hcontent⟩
    rw [find_of_found hfound]
    exact hcontent

/-- The node is a directory. -/
def Directory (fs : FileSystem) (i : Nat) : Prop :=
  ∃ parent lookup, fs.view i = .directory parent lookup

lemma directory_of_node? {i parent : Nat} {entries : List (String × Nat)}
    (h : fs.node? i = some (.directory parent entries)) : fs.Directory i :=
  ⟨parent, _, by rw [view, h]⟩

lemma not_directory_of_node? {i : Nat} {n : Node} (h : fs.node? i = some n)
    (other : ∀ parent entries, n ≠ .directory parent entries) : ¬ fs.Directory i := by
  rintro ⟨parent, lookup, hview⟩
  obtain ⟨entries, hnode, -⟩ := view_directory hview
  rw [h] at hnode
  exact other _ _ (Option.some.inj hnode)

lemma not_directory_of_content {i : Nat} {bytes : Bytes} (h : fs.content i = .ok bytes) :
    ¬ fs.Directory i := by
  rintro ⟨parent, lookup, hview⟩
  obtain ⟨entries, hnode, -⟩ := view_directory hview
  simp [content, hnode] at h

lemma isFile_iff : fs.isFile path = true ↔
    ∃ i content x, fs.find path = .ok i ∧ fs.node? i = some (.file content x) := by
  unfold isFile
  constructor
  · intro h
    split at h
    · rename_i i hfind
      split at h
      · rename_i content x hnode
        exact ⟨i, content, x, hfind, hnode⟩
      · cases h
    · cases h
  · rintro ⟨i, content, x, hfind, hnode⟩
    simp [hfind, hnode]

lemma stands_of_isFile (file : fs.isFile path) : fs.Stands path := by
  obtain ⟨i, content, x, hfind, hnode⟩ := isFile_iff.mp file
  exact ⟨by simp [exists?, hfind], by simp [isDirectory, hfind, hnode]⟩

/-- On what stands at a path links come to an end. -/
lemma Stands.toPlain (stands : fs.Stands path) : fs.Plain path := by
  obtain ⟨i, hfind⟩ := exists?_iff.mp stands.1
  exact ⟨by simp [hfind], stands.2⟩

/-- A node that is the same, or a directory before and after, holds the same. -/
lemma content_iff_of_node {i : Nat} (directory : fs'.Directory i ↔ fs.Directory i)
    (same : ¬ fs.Directory i → fs'.node? i = fs.node? i) {bytes : Bytes} :
    fs'.content i = .ok bytes ↔ fs.content i = .ok bytes := by
  constructor
  · intro hbytes
    have hplain := fun hd => not_directory_of_content hbytes (directory.mpr hd)
    rwa [content, same hplain] at hbytes
  · intro hbytes
    rwa [content, same (not_directory_of_content hbytes)]

/-! ### Opening -/

/-- A path that leads to a place still does when a file was opened. -/
lemma resolve_of_create {h : Handle} (create : fs.create path = .ok (h, fs')) {i : Nat}
    {entry : Option (Nat × String)} (found : fs.resolve follow other = .ok (.found i entry)) :
    fs'.resolve follow other = .ok (.found i entry) := by
  cases creates_of_create create with
  | made hvacant =>
    have hapart := (lacks_addFile (holds_of_resolve hvacant)).resolve follow other
    generalize (fs.addFile _ _).resolve follow other = r at hapart ⊢
    rw [found] at hapart
    cases hapart with
    | elsewhere found vacant => rfl
  | emptied hfind hnode => rwa [(alike_setNode hnode).resolve]
  | kept hfind hnode => exact found

lemma stands_of_stands_create {h : Handle} (create : fs.create path = .ok (h, fs'))
    (stands : fs.Stands other) : fs'.Stands other := by
  obtain ⟨i, hfind⟩ := exists?_iff.mp stands.1
  exact ⟨exists?_iff.mpr ⟨i, find_of_create create hfind⟩,
    (tame_of_create create).plain stands.2⟩

/-- A path that leads to a place when a file was opened led there before, or leads to the file. -/
lemma resolve_back_of_create {h : Handle} (create : fs.create path = .ok (h, fs')) {i : Nat}
    {entry : Option (Nat × String)} (found : fs'.resolve follow other = .ok (.found i entry)) :
    fs.resolve follow other = .ok (.found i entry) ∨ i = h.node := by
  cases creates_of_create create with
  | @made d name hvacant =>
    have hleaf : (fs.addFile d name).view fs.nodes.size = .leaf := by
      rw [view, (resolve_addFile hvacant).2]
    have hapart := (lacks_addFile (holds_of_resolve hvacant)).resolve follow other
    rw [found] at hapart
    generalize fs.resolve follow other = r at hapart ⊢
    cases hapart with
    | elsewhere found vacant => exact .inl rfl
    | through behind =>
      rw [walkBehind_leaf_cons hleaf] at behind
      cases behind
    | ends behind =>
      rw [walkBehind_leaf hleaf] at behind
      obtain ⟨rfl, -⟩ : i = fs.nodes.size ∧ _ := by simpa using behind
      exact .inr rfl
  | emptied hfind hnode =>
    rw [(alike_setNode hnode).resolve] at found
    exact .inl found
  | kept hfind hnode => exact .inl found

/-- Two paths that lead to one place when a file was opened did so before, unless it is the file. -/
lemma SamePlace.of_create {h : Handle} {p q : String} (create : fs.create path = .ok (h, fs'))
    (away : ∀ entry, fs'.resolve follow q ≠ .ok (.found h.node entry))
    (same : fs'.SamePlace follow p q) : fs.SamePlace follow p q := by
  obtain ⟨i, entry, hp, hq⟩ := same
  have hne : i ≠ h.node := by
    rintro rfl
    exact away entry hq
  exact ⟨i, entry, (resolve_back_of_create create hp).resolve_right hne,
    (resolve_back_of_create create hq).resolve_right hne⟩

/-- Opening changes the file that is opened, and the directory that names it. -/
lemma node?_of_create {h : Handle} (create : fs.create path = .ok (h, fs')) {i : Nat}
    (ne : i ≠ h.node) (plain : ¬ fs.Directory i) : fs'.node? i = fs.node? i := by
  cases creates_of_create create with
  | @made d name hvacant =>
    obtain ⟨parent, lookup, hview, -⟩ := holds_of_resolve hvacant
    obtain ⟨entries, hd, -⟩ := view_directory hview
    have hdi : d ≠ i := by
      rintro rfl
      exact plain (directory_of_node? hd)
    rw [node?_addFile hd, if_neg hdi, if_neg ne]
  | emptied hfind hnode => rw [node?_setNode hnode, if_neg (Ne.symm ne)]
  | kept hfind hnode => rfl

lemma directory_of_create {h : Handle} (create : fs.create path = .ok (h, fs')) (i : Nat) :
    fs'.Directory i ↔ fs.Directory i := by
  cases creates_of_create create with
  | made hvacant => exact (lacks_addFile (holds_of_resolve hvacant)).directory_iff.symm
  | emptied hfind hnode => rw [Directory, Directory, (alike_setNode hnode).view]
  | kept hfind hnode => rfl

lemma content_of_create {h : Handle} (create : fs.create path = .ok (h, fs')) {i : Nat}
    (ne : i ≠ h.node) {bytes : Bytes} : fs'.content i = .ok bytes ↔ fs.content i = .ok bytes :=
  content_iff_of_node (directory_of_create create i) (node?_of_create create ne)

/-- What was opened can be synced if it is a file, which does not change. -/
lemma sync_iff {h : Handle} :
    fs.sync h = .ok () ↔ ∃ content x, fs.node? h.node = some (.file content x) := by
  unfold FileSystem.sync
  split
  · rename_i content x hnode
    simp [hnode]
  · rename_i hother
    simp only [reduceCtorEq, false_iff]
    rintro ⟨content, x, hnode⟩
    exact hother content x hnode

/-- A handle stays on its node. -/
lemma node_of_write {h h' : Handle} {bytes : Bytes} (write : fs.write h bytes = .ok (h', fs')) :
    h'.node = h.node := by
  cases writes_of_write write <;> rfl

lemma sync_of_write {h h' : Handle} {bytes : Bytes}
    (write : fs.write h bytes = .ok (h', fs')) : fs'.sync h' = .ok () ↔ fs.sync h = .ok () := by
  rw [sync_iff, sync_iff, node_of_write write]
  cases writes_of_write write with
  | nothing hempty => rfl
  | rewritten hnode => simp [node?_setNode hnode, hnode]
  | lost hother => rfl

/-! ### What is spared -/

/-- At most the paths in `removed` are gone, and at most the nodes in `written` hold something
else. -/
structure Spares (removed : String → Prop) (written : Nat → Prop) (fs fs' : FileSystem) :
    Prop where
  /-- no path leads to a place that it did not lead to -/
  back : ∀ {follow other i entry}, fs'.resolve follow other = .ok (.found i entry) →
    fs.resolve follow other = .ok (.found i entry)
  keeps : ∀ {follow other i entry}, fs.resolve follow other = .ok (.found i entry) →
    (∀ path, removed path → fs.resolve follow path ≠ .ok (.found i entry)) →
    fs'.resolve follow other = .ok (.found i entry)
  directory : ∀ i, fs'.Directory i ↔ fs.Directory i
  node : ∀ i, ¬ written i → ¬ fs.Directory i → fs'.node? i = fs.node? i

namespace Spares

variable {removed : String → Prop} {written : Nat → Prop} {fs'' : FileSystem}

lemma refl (fs : FileSystem) : Spares removed written fs fs :=
  ⟨id, fun found _ => found, fun _ => Iff.rfl, fun _ _ _ => rfl⟩

lemma trans (h : Spares removed written fs fs') (k : Spares removed written fs' fs'') :
    Spares removed written fs fs'' := by
  refine ⟨fun found => h.back (k.back found), fun found apart => ?_,
    fun i => (k.directory i).trans (h.directory i), fun i hi plain => ?_⟩
  · exact k.keeps (h.keeps found apart) fun path hpath hthere => apart path hpath (h.back hthere)
  · rw [k.node i hi fun hd => plain ((h.directory i).mp hd), h.node i hi plain]

/-- A file that is not written holds what it held. -/
lemma content (h : Spares removed written fs fs') {i : Nat} (unwritten : ¬ written i)
    {bytes : Bytes} : fs'.content i = .ok bytes ↔ fs.content i = .ok bytes :=
  content_iff_of_node (h.directory i) (h.node i unwritten)

/-- A path that leads to no removed place and to no written node reads as before. -/
lemma read_iff (h : Spares removed written fs fs')
    (apart : ∀ path, removed path → ¬ fs.SamePlace true path other)
    (unwritten : ∀ i, fs.find other = .ok i → ¬ written i) {bytes : Bytes} :
    fs'.read other = .ok bytes ↔ fs.read other = .ok bytes := by
  rw [read_eq_ok_iff, read_eq_ok_iff]
  constructor
  · rintro ⟨i, entry, hfound, hcontent⟩
    have hbefore := h.back hfound
    exact ⟨i, entry, hbefore, (h.content (unwritten i (find_of_found hbefore))).mp hcontent⟩
  · rintro ⟨i, entry, hfound, hcontent⟩
    have hafter := h.keeps hfound fun path hpath hthere =>
      apart path hpath ⟨i, entry, hthere, hfound⟩
    exact ⟨i, entry, hafter, (h.content (unwritten i (find_of_found hfound))).mpr hcontent⟩

/-- What is not written can be synced as before. -/
lemma sync_iff (h : Spares removed written fs fs') {handle : Handle}
    (unwritten : ¬ written handle.node) :
    fs'.sync handle = .ok () ↔ fs.sync handle = .ok () := by
  have hplain {fs : FileSystem} {content : Bytes} {x : Bool}
      (hnode : fs.node? handle.node = some (.file content x)) : ¬ fs.Directory handle.node :=
    not_directory_of_node? hnode (by simp)
  rw [FileSystem.sync_iff, FileSystem.sync_iff]
  constructor
  · rintro ⟨content, x, hnode⟩
    have hbefore : ¬ fs.Directory handle.node :=
      fun hd => hplain hnode ((h.directory _).mpr hd)
    exact ⟨content, x, by rw [← h.node _ unwritten hbefore, hnode]⟩
  · rintro ⟨content, x, hnode⟩
    exact ⟨content, x, by rw [h.node _ unwritten (hplain hnode), hnode]⟩

section Opened

variable {h : Handle} {fs₁ : FileSystem}

/-- Behind an opened file a path that leads elsewhere leads where it led. -/
lemma places_of_create (k : Spares removed written fs₁ fs')
    (create : fs.create path = .ok (h, fs₁))
    (apart : ∀ path, removed path → ¬ fs₁.SamePlace follow path other)
    (away : ∀ entry, fs₁.resolve follow other ≠ .ok (.found h.node entry)) {i : Nat}
    {entry : Option (Nat × String)} :
    fs'.resolve follow other = .ok (.found i entry) ↔
      fs.resolve follow other = .ok (.found i entry) := by
  constructor
  · intro hfound
    have hopened := k.back hfound
    rcases resolve_back_of_create create hopened with hbefore | rfl
    · exact hbefore
    · exact absurd hopened (away entry)
  · intro hfound
    have hopened := resolve_of_create create hfound
    exact k.keeps hopened fun path hpath hthere => apart path hpath ⟨i, entry, hthere, hopened⟩

lemma read_iff_of_create (k : Spares removed (fun n => n = h.node) fs₁ fs')
    (create : fs.create path = .ok (h, fs₁))
    (apart : ∀ path, removed path → ¬ fs₁.SamePlace true path other)
    (away : ∀ entry, fs₁.resolve true other ≠ .ok (.found h.node entry)) {bytes : Bytes} :
    fs'.read other = .ok bytes ↔ fs.read other = .ok bytes := by
  have hcontent {i : Nat} {entry : Option (Nat × String)}
      (hfound : fs.resolve true other = .ok (.found i entry)) :
      fs'.content i = .ok bytes ↔ fs.content i = .ok bytes := by
    have hne : i ≠ h.node := by
      rintro rfl
      exact away entry (resolve_of_create create hfound)
    exact (k.content hne).trans (content_of_create create hne)
  rw [read_eq_ok_iff, read_eq_ok_iff]
  constructor
  · rintro ⟨i, entry, hfound, hbytes⟩
    have hbefore := (k.places_of_create create apart away).mp hfound
    exact ⟨i, entry, hbefore, (hcontent hbefore).mp hbytes⟩
  · rintro ⟨i, entry, hfound, hbytes⟩
    have hafter := (k.places_of_create create apart away).mpr hfound
    exact ⟨i, entry, hafter, (hcontent hfound).mpr hbytes⟩

end Opened

end Spares

lemma spares_of_alike (alike : Alike fs fs') {removed : String → Prop} {written : Nat → Prop}
    (node : ∀ i, ¬ written i → ¬ fs.Directory i → fs'.node? i = fs.node? i) :
    Spares removed written fs fs' := by
  refine ⟨fun found => ?_, fun found _ => ?_, fun i => ?_, node⟩
  · rwa [alike.resolve] at found
  · rwa [alike.resolve]
  · rw [Directory, Directory, alike.view]

lemma spares_of_write {h h' : Handle} {bytes : Bytes} {removed : String → Prop}
    {written : Nat → Prop} (on : written h.node) (write : fs.write h bytes = .ok (h', fs')) :
    Spares removed written fs fs' := by
  refine spares_of_alike (alike_of_write write) fun i hi _ => ?_
  have hne : h.node ≠ i := by
    rintro rfl
    exact hi on
  cases writes_of_write write with
  | nothing hempty => rfl
  | rewritten hnode => rw [node?_spend, node?_setNode hnode, if_neg hne]
  | lost hother => rfl

/-- Removing takes one place away, unless the path is a link that others go through. -/
lemma spares_of_remove {removed : String → Prop} {written : Nat → Prop} (on : removed path)
    (leads : fs.isLink path = true → fs.Plain path) (remove : fs.remove path = .ok fs') :
    Spares removed written fs fs' := by
  obtain ⟨i, d, name, hfirst, hfile, heq, hlacks⟩ := lacks_of_remove remove
  obtain ⟨parent, lookup, -, hview, -⟩ := hlacks.directory
  obtain ⟨entries, hd, -⟩ := view_directory hview
  have hplain (parent : Nat) (lookup : String → Option Nat) :
      fs.view i ≠ .directory parent lookup := by
    intro hv
    obtain ⟨entries', hnode, -⟩ := view_directory hv
    exact hfile parent entries' hnode
  constructor
  case back =>
    intro follow other j entry found
    have hapart := hlacks.resolve follow other
    rw [found] at hapart
    generalize fs.resolve follow other = r at hapart ⊢
    cases hapart with
    | elsewhere found vacant => rfl
  case keeps =>
    intro follow other j entry found apart
    have hapart := hlacks.resolve follow other
    rw [found] at hapart
    generalize fs'.resolve follow other = r at hapart ⊢
    cases hapart with
    | elsewhere found vacant => rfl
    | through behind => cases (resolve_of_behind hfirst hplain leads behind.symm).1
    | ends behind =>
      exact absurd (resolve_of_behind hfirst hplain leads behind.symm).2 (apart path on)
  case directory => exact fun j => hlacks.directory_iff
  case node =>
    intro j _ hj
    have hdj : d ≠ j := by
      rintro rfl
      exact hj (directory_of_node? hd)
    rw [heq, removeEntry, hd]
    dsimp only
    rw [node?_setNode hd, if_neg hdj]

lemma spares_removeIfPossible {removed : String → Prop} {written : Nat → Prop}
    (on : removed path) (leads : fs.isLink path = true → fs.Plain path) :
    Spares removed written fs (fs.removeIfPossible path) := by
  unfold removeIfPossible
  split
  · rename_i fs' hremove
    exact spares_of_remove on leads hremove
  · exact .refl fs

/-- What is not there does not come back. -/
lemma Wanes.gone (h : Wanes fs fs') (gone : fs.exists? path = false) :
    fs'.exists? path = false := by
  obtain ⟨e, hfind⟩ := not_exists?_iff.mp gone
  refine not_exists?_iff.mpr ?_
  rcases h.find path with hsame | hnone
  · exact ⟨e, hsame.trans hfind⟩
  · exact ⟨_, hnone⟩

/-- A path that links come to an end on stays one. -/
lemma Wanes.plain (h : Wanes fs fs') (plain : fs.Plain path) : fs'.Plain path := by
  refine ⟨?_, h.tame.plain plain.2⟩
  rcases h.find path with hsame | hgone
  · rw [hsame]
    exact plain.1
  · rw [hgone]
    rintro ⟨⟩

/-! ### Changes one after another -/

/-- Files are changed step by step: paths in `opens` are opened for writing, paths in `removes` are
removed, and files are written that were open at the start or opened meanwhile. -/
inductive Edits (opens removes : String → Prop) :
    (Nat → Prop) → FileSystem → FileSystem → Prop
  | done {held : Nat → Prop} {fs : FileSystem} : Edits opens removes held fs fs
  | opened {held : Nat → Prop} {fs fs₁ fs' : FileSystem} {path : String} {h : Handle}
      (may : opens path) (create : fs.create path = .ok (h, fs₁))
      (rest : Edits opens removes (fun n => held n ∨ n = h.node) fs₁ fs') :
      Edits opens removes held fs fs'
  | written {held : Nat → Prop} {fs fs₁ fs' : FileSystem} {h h' : Handle} {bytes : Bytes}
      (may : held h.node) (write : fs.write h bytes = .ok (h', fs₁))
      (rest : Edits opens removes held fs₁ fs') : Edits opens removes held fs fs'
  | removed {held : Nat → Prop} {fs fs₁ fs' : FileSystem} {path : String} (may : removes path)
      (remove : fs.remove path = .ok fs₁) (rest : Edits opens removes held fs₁ fs') :
      Edits opens removes held fs fs'

namespace Edits

variable {opens removes : String → Prop} {held : Nat → Prop} {fs'' : FileSystem}

lemma mono {opens' removes' : String → Prop} {held' : Nat → Prop}
    (h : Edits opens removes held fs fs') (opened : ∀ path, opens path → opens' path)
    (removed : ∀ path, removes path → removes' path) (holds : ∀ n, held n → held' n) :
    Edits opens' removes' held' fs fs' := by
  induction h generalizing held' with
  | done => exact .done
  | opened may create rest ih =>
    exact .opened (opened _ may) create (ih fun n hn => hn.imp (holds n) id)
  | written may write rest ih => exact .written (holds _ may) write (ih holds)
  | removed may remove rest ih => exact .removed (removed _ may) remove (ih holds)

lemma trans (h : Edits opens removes held fs fs') (k : Edits opens removes held fs' fs'') :
    Edits opens removes held fs fs'' := by
  induction h with
  | done => exact k
  | opened may create rest ih =>
    exact .opened may create (ih (k.mono (fun _ => id) (fun _ => id) fun _ => .inl))
  | written may write rest ih => exact .written may write (ih k)
  | removed may remove rest ih => exact .removed may remove (ih k)

lemma removeIfPossible (may : ∀ fs', fs.remove path = .ok fs' → removes path) :
    Edits opens removes held fs (fs.removeIfPossible path) := by
  unfold FileSystem.removeIfPossible
  split
  · rename_i fs' hremove
    exact .removed (may fs' hremove) hremove .done
  · exact .done

/-- Where nothing is opened, only what is removed is gone, and only what is held is written. -/
theorem spares (h : Edits (fun _ => False) removes held fs fs')
    (plain : ∀ path, removes path → fs.Plain path) : Spares removes held fs fs' := by
  induction h with
  | done => exact .refl _
  | opened may create rest ih => exact may.elim
  | written may write rest ih =>
    have hwanes := (alike_of_write write).wanes
    exact (spares_of_write may write).trans (ih fun path hp => hwanes.plain (plain path hp))
  | removed may remove rest ih =>
    have hwanes := wanes_of_remove remove
    exact (spares_of_remove may (fun _ => plain _ may) remove).trans
      (ih fun path hp => hwanes.plain (plain path hp))

end Edits

end DeviceUpdate.FileSystem
