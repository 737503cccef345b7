import DeviceUpdate.Proofs.FileSystem.Walk

/-!
# What files hold

A file that was opened gathers what is written to it, in order. Removing a file leaves every other
path as it is, or takes it away; it never changes what is read.
-/

namespace DeviceUpdate

namespace FileSystem

variable {fs fs' : FileSystem} {path other : String}

lemma lt_of_node? {i : Nat} {n : Node} (h : fs.node? i = some n) : i < fs.nodes.size :=
  (Array.getElem?_eq_some_iff.mp h).1

lemma node?_setNode {i : Nat} {old : Node} (h : fs.node? i = some old) (n : Node) (j : Nat) :
    (fs.setNode i n).node? j = if i = j then some n else fs.node? j := by
  simp only [node?, setNode, Array.getElem?_setIfInBounds, if_pos (lt_of_node? h)]

@[simp] lemma node?_spend (n i : Nat) : (fs.spend n).node? i = fs.node? i := rfl

/-- New content changes nothing for walks. -/
lemma alike_setNode {i : Nat} {content content' : Bytes} {x : Bool}
    (h : fs.node? i = some (.file content x)) : Alike fs (fs.setNode i (.file content' x)) := by
  refine ⟨rfl, rfl, fun j => ?_⟩
  rw [view, view, node?_setNode h]
  by_cases hij : i = j
  · rw [if_pos hij, ← hij, h]
  · rw [if_neg hij]

/-! ### Reading -/

lemma content_file {i : Nat} {content : Bytes} {x : Bool}
    (h : fs.node? i = some (.file content x)) : fs.content i = .ok content := by
  rw [FileSystem.content, h]

lemma resolve_of_find {i : Nat} (h : fs.find path = .ok i) :
    ∃ entry, fs.resolve true path = .ok (.found i entry) := by
  unfold find at h
  split at h
  · rename_i j entry hfound
    obtain rfl : j = i := by simpa using h
    exact ⟨entry, hfound⟩
  · simp at h
  · simp at h

lemma find_of_read {bytes : Bytes} (h : fs.read path = .ok bytes) : ∃ i, fs.find path = .ok i ∧
    ∀ parent entries, fs.node? i ≠ some (.directory parent entries) := by
  unfold read at h
  split at h
  · rename_i i hfind
    refine ⟨i, hfind, fun parent entries hnode => ?_⟩
    simp [content, hnode] at h
  · simp at h

lemma exists?_iff : fs.exists? path = true ↔ ∃ i, fs.find path = .ok i := by
  unfold exists?
  cases fs.find path <;> simp

lemma not_exists?_iff : fs.exists? path = false ↔ ∃ e, fs.find path = .error e := by
  unfold exists?
  cases fs.find path <;> simp

lemma isDirectory_iff : fs.isDirectory path = true ↔
    ∃ i parent lookup, fs.find path = .ok i ∧ fs.view i = .directory parent lookup := by
  unfold isDirectory view
  cases hfind : fs.find path with
  | error e => simp
  | ok i => cases hnode : fs.node? i with
    | none => simp [hnode]
    | some node => cases node <;> simp [hnode]

/-! ### Opening -/

/-- A new file under a name that its directory does not have. -/
def addFile (fs : FileSystem) (directory : Nat) (name : String) : FileSystem :=
  (fs.addNode (.file [] false)).2.addEntry directory name fs.nodes.size

lemma node?_addFile {d parent : Nat} {name : String} {entries : List (String × Nat)}
    (h : fs.node? d = some (.directory parent entries)) (i : Nat) :
    (fs.addFile d name).node? i =
      if d = i then some (.directory parent (entries ++ [(name, fs.nodes.size)]))
      else if i = fs.nodes.size then some (.file [] false) else fs.node? i := by
  have hadded (j : Nat) : (fs.addNode (.file [] false)).2.node? j =
      if j = fs.nodes.size then some (.file [] false) else fs.node? j := by
    simp only [node?, addNode, Array.getElem?_push]
  have hd : (fs.addNode (.file [] false)).2.node? d = some (.directory parent entries) := by
    rw [hadded, if_neg (Nat.ne_of_lt (lt_of_node? h)), h]
  rw [addFile, addEntry, hd]
  dsimp only
  rw [node?_setNode hd, hadded]

lemma lookup_entry (entries : List (String × Nat)) (name other : String) (i : Nat) :
    ((name, i) :: entries).lookup other =
      if other = name then some i else entries.lookup other := by
  rw [List.lookup_cons]
  by_cases h : other = name
  · simp [h]
  · rw [if_neg h, beq_false_of_ne h]

/-- Without the entry of a new file everything is as before. -/
lemma lacks_addFile {d : Nat} {name : String} (h : fs.Holds (.vacant d name)) :
    Lacks (fs.addFile d name) fs d name fs.nodes.size := by
  obtain ⟨parent, lookup, hview, hname⟩ := h
  obtain ⟨entries, hd, rfl⟩ := view_directory hview
  have hadd : fs.addFile d name =
      { (fs.addFile d name) with root := fs.root, current := fs.current } := by
    rw [addFile, addEntry]
    split <;> rfl
  refine ⟨by rw [hadd], by rw [hadd], fun i hi => ?_, parent,
    ((entries ++ [(name, fs.nodes.size)]).lookup ·), (entries.lookup ·), ?_, hview, ?_, hname, ?_⟩
  · rw [view, view, node?_addFile hd, if_neg (Ne.symm hi)]
    by_cases hsize : i = fs.nodes.size
    · have hnone : fs.node? i = none := by simp [node?, hsize]
      rw [if_pos hsize, hnone]
    · rw [if_neg hsize]
  · rw [view, node?_addFile hd, if_pos rfl]
  · dsimp only at hname ⊢
    rw [List.lookup_append, hname, lookup_entry, if_pos rfl]
    rfl
  · intro other hother
    dsimp only
    rw [List.lookup_append, lookup_entry, if_neg hother, List.lookup_nil, Option.or_none]

/-- Where a path led nowhere, it leads to the new file. -/
lemma resolve_addFile {d : Nat} {name : String}
    (h : fs.resolve true path = .ok (.vacant d name)) :
    (fs.addFile d name).resolve true path = .ok (.found fs.nodes.size (some (d, name))) ∧
      (fs.addFile d name).node? fs.nodes.size = some (.file [] false) := by
  have hholds := holds_of_resolve h
  obtain ⟨parent, lookup, hview, -⟩ := hholds
  obtain ⟨entries, hd, -⟩ := view_directory hview
  have hnode : (fs.addFile d name).node? fs.nodes.size = some (.file [] false) := by
    rw [node?_addFile hd, if_neg (Nat.ne_of_lt (lt_of_node? hd)), if_pos rfl]
  have hleaf : (fs.addFile d name).view fs.nodes.size = .leaf := by
    rw [view, hnode]
  refine ⟨?_, hnode⟩
  have hapart := (lacks_addFile (holds_of_resolve h)).resolve true path
  generalize (fs.addFile d name).resolve true path = r at hapart ⊢
  rw [h] at hapart
  cases hapart with
  | elsewhere found vacant => exact absurd rfl vacant
  | ends behind => rw [behind, walkBehind_leaf hleaf]

/-- Opening a file for writing makes an empty one, empties the one that is there, or does nothing
to what is no file. -/
inductive Creates (fs : FileSystem) (path : String) : Handle → FileSystem → Prop
  | made {d : Nat} {name : String} (h : fs.resolve true path = .ok (.vacant d name)) :
      Creates fs path ⟨fs.nodes.size, 0⟩ (fs.addFile d name)
  | emptied {i : Nat} {content : Bytes} {x : Bool} (find : fs.find path = .ok i)
      (h : fs.node? i = some (.file content x)) :
      Creates fs path ⟨i, 0⟩ (fs.setNode i (.file [] x))
  | kept {i : Nat} (find : fs.find path = .ok i)
      (h : ∀ content x, fs.node? i ≠ some (.file content x)) : Creates fs path ⟨i, 0⟩ fs

lemma creates_of_create {h : Handle} (create : fs.create path = .ok (h, fs')) :
    fs.Creates path h fs' := by
  unfold FileSystem.create at create
  split at create
  · simp at create
  · rename_i d name hvacant
    obtain ⟨rfl, rfl⟩ := by simpa using create
    exact .made hvacant
  · rename_i i entry hfound
    have hfind : fs.find path = .ok i := by rw [find, hfound]
    split at create
    · rename_i content x hnode
      obtain ⟨rfl, rfl⟩ := by simpa using create
      exact .emptied hfind hnode
    · simp at create
    · rename_i hother _
      obtain ⟨rfl, rfl⟩ := by simpa using create
      exact .kept hfind hother

/-- A new file changes nothing for a path that led somewhere. -/
lemma find_addFile {d i : Nat} {name : String} (h : fs.Holds (.vacant d name))
    (there : fs.find other = .ok i) : (fs.addFile d name).find other = .ok i := by
  obtain ⟨entry, hresolve⟩ := resolve_of_find there
  have hapart := (lacks_addFile h).resolve true other
  rw [find]
  generalize (fs.addFile d name).resolve true other = r at hapart ⊢
  rw [hresolve] at hapart
  cases hapart with
  | elsewhere found vacant => rfl

lemma read_addFile {d : Nat} {name : String} {bytes : Bytes} (h : fs.Holds (.vacant d name))
    (there : fs.read other = .ok bytes) : (fs.addFile d name).read other = .ok bytes := by
  obtain ⟨i, hfind, hnode⟩ := find_of_read there
  have hsame := find_addFile h hfind
  obtain ⟨parent, lookup, hview, -⟩ := h
  obtain ⟨entries, hd, -⟩ := view_directory hview
  rw [read, hfind] at there
  dsimp only at there
  rw [read, hsame]
  dsimp only
  rw [content, node?_addFile hd, if_neg (fun hdi => hnode _ _ (hdi ▸ hd))]
  by_cases hnew : i = fs.nodes.size
  · have hnone : fs.node? i = none := by simp [node?, hnew]
    rw [content, hnone] at there
    rw [if_pos hnew]
    exact there
  · rw [if_neg hnew]
    exact there

lemma find_of_create {i : Nat} {h : Handle} (create : fs.create path = .ok (h, fs'))
    (there : fs.find other = .ok i) : fs'.find other = .ok i := by
  cases creates_of_create create with
  | made hvacant => exact find_addFile (holds_of_resolve hvacant) there
  | emptied hfind hnode => rwa [(alike_setNode hnode).find]
  | kept hfind hnode => exact there

/-- Both paths lead to one file, which is not empty yet. -/
def Empties (fs : FileSystem) (path other : String) : Prop :=
  fs.find path = fs.find other ∧ fs.isFile other ∧ fs.read other ≠ .ok []

/-- Opening a file for writing takes the content of another path away if that leads to the same
file, and there was any. -/
theorem read_of_create {h : Handle} {bytes : Bytes} (create : fs.create path = .ok (h, fs'))
    (there : fs.read other = .ok bytes) :
    fs'.read other ≠ fs.read other ↔ fs.Empties path other := by
  rw [Empties, there]
  obtain ⟨i, hfind, -⟩ := find_of_read there
  have hbytes : fs.content i = .ok bytes := by
    rwa [read, hfind] at there
  cases creates_of_create create with
  | made hvacant =>
    have hnone : fs.find path = .error .notFound := by rw [find, hvacant]
    rw [read_addFile (holds_of_resolve hvacant) there, hnone, hfind]
    simp
  | @emptied j old x hpath hnode =>
    rw [hpath, hfind, read, (alike_setNode hnode).find, hfind]
    dsimp only
    by_cases hij : j = i
    · subst hij
      obtain rfl : old = bytes := by
        rw [content_file hnode] at hbytes
        exact Except.ok.inj hbytes
      have hempty : (fs.setNode j (.file [] x)).content j = .ok [] :=
        content_file (by rw [node?_setNode hnode, if_pos rfl])
      have hfile : fs.isFile other := by simp [isFile, hfind, hnode]
      rw [hempty]
      constructor
      · intro hne
        exact ⟨rfl, hfile, fun hnil => hne hnil.symm⟩
      · rintro ⟨-, -, hne⟩ heq
        exact hne heq.symm
    · have hsame : (fs.setNode j (.file [] x)).content i = .ok bytes := by
        rw [content, node?_setNode hnode, if_neg hij]
        exact hbytes
      rw [hsame]
      constructor
      · intro hne
        exact absurd rfl hne
      · rintro ⟨heq, -⟩
        exact absurd (Except.ok.inj heq) hij
  | @kept j hpath hnode =>
    constructor
    · intro hne
      exact absurd there hne
    · rintro ⟨heq, hfile, -⟩
      rw [hpath, hfind] at heq
      obtain rfl := Except.ok.inj heq
      rw [isFile, hfind] at hfile
      dsimp only at hfile
      split at hfile
      · rename_i content x hfile'
        exact absurd hfile' (hnode content x)
      · cases hfile

/-- The path leads to the node of the handle. If that is a file, it holds `content`, and the handle
stands at its end. -/
structure Gathers (fs : FileSystem) (path : String) (h : Handle) (content : Bytes) : Prop where
  find : fs.find path = .ok h.node
  offset : h.offset = content.length
  content : ∀ bytes x, fs.node? h.node = some (.file bytes x) → bytes = content

lemma gathers_of_create {h : Handle} (create : fs.create path = .ok (h, fs')) :
    fs'.Gathers path h [] := by
  cases creates_of_create create with
  | made hvacant =>
    obtain ⟨hresolve, hnode⟩ := resolve_addFile hvacant
    refine ⟨by rw [FileSystem.find, hresolve], rfl, fun bytes x hbytes => ?_⟩
    obtain ⟨rfl, -⟩ : _ ∧ _ := by simpa [hnode] using hbytes
    rfl
  | emptied find hnode =>
    refine ⟨by rw [(alike_setNode hnode).find, find], rfl, fun bytes x hbytes => ?_⟩
    rw [node?_setNode hnode, if_pos rfl] at hbytes
    obtain ⟨rfl, -⟩ : _ ∧ _ := by simpa using hbytes
    rfl
  | kept find hnode => exact ⟨find, rfl, fun bytes x hbytes => absurd hbytes (hnode bytes x)⟩

lemma overwrite_end (old new : Bytes) : overwrite old old.length new = old ++ new := by
  simp [overwrite]

/-- A write goes to the file that the handle leads to, and is lost if it is none. -/
inductive Writes (fs : FileSystem) (h : Handle) (bytes : Bytes) : Handle → FileSystem → Prop
  | nothing (empty : bytes = []) : Writes fs h bytes h fs
  | rewritten {old : Bytes} {x : Bool} (holds : fs.node? h.node = some (.file old x))
      (takes : fs.takes bytes.length) : Writes fs h bytes ⟨h.node, h.offset + bytes.length⟩
        ((fs.setNode h.node (.file (overwrite old h.offset bytes) x)).spend bytes.length)
  | lost (other : ∀ old x, fs.node? h.node ≠ some (.file old x)) :
      Writes fs h bytes ⟨h.node, h.offset + bytes.length⟩ fs

lemma writes_of_write {h h' : Handle} {bytes : Bytes}
    (write : fs.write h bytes = .ok (h', fs')) : fs.Writes h bytes h' fs' := by
  unfold FileSystem.write at write
  split at write
  · rename_i hempty
    obtain ⟨rfl, rfl⟩ := Prod.mk.inj (Except.ok.inj write)
    exact .nothing (List.isEmpty_iff.mp hempty)
  · split at write
    · rename_i old x hnode
      split at write
      · rename_i htakes
        obtain ⟨rfl, rfl⟩ := Prod.mk.inj (Except.ok.inj write)
        exact .rewritten hnode htakes
      · simp at write
    · simp at write
    · rename_i hother _
      obtain ⟨rfl, rfl⟩ := Prod.mk.inj (Except.ok.inj write)
      exact .lost hother

lemma alike_of_write {h h' : Handle} {bytes : Bytes} (write : fs.write h bytes = .ok (h', fs')) :
    Alike fs fs' := by
  cases writes_of_write write with
  | nothing hempty => exact ⟨rfl, rfl, fun _ => rfl⟩
  | rewritten hnode => exact (alike_setNode hnode).trans (alike_spend _ _)
  | lost hother => exact ⟨rfl, rfl, fun _ => rfl⟩

/-- What a failed write leaves is left by a write of a part, if by none at all. -/
lemma write_of_spill (fs : FileSystem) (h : Handle) (bytes : Bytes) :
    ∃ part h', fs.write h part = .ok (h', fs.spill h bytes) := by
  have hnone : fs.write h [] = .ok (h, fs) := rfl
  unfold spill
  split
  · exact ⟨[], h, hnone⟩
  · split
    · rename_i h' fs' hwrite
      exact ⟨_, h', hwrite⟩
    · exact ⟨[], h, hnone⟩

/-- What is written comes behind what was written before. -/
lemma Gathers.write {h h' : Handle} {content bytes : Bytes} (gathers : fs.Gathers path h content)
    (write : fs.write h bytes = .ok (h', fs')) : fs'.Gathers path h' (content ++ bytes) := by
  have hmoved : h.offset + bytes.length = (content ++ bytes).length := by
    rw [List.length_append, ← gathers.offset]
  have hfind := ((alike_of_write write).find path).trans gathers.find
  cases writes_of_write write with
  | nothing hempty => rwa [hempty, List.append_nil]
  | @rewritten old x hnode =>
    refine ⟨hfind, hmoved, fun bytes' y hnew => ?_⟩
    rw [node?_spend, node?_setNode hnode, if_pos rfl] at hnew
    obtain ⟨rfl, -⟩ : _ ∧ _ := by simpa using hnew
    obtain rfl := gathers.content old x hnode
    rw [gathers.offset, overwrite_end]
  | lost hother =>
    exact ⟨hfind, hmoved, fun bytes' y hnode => absurd hnode (hother bytes' y)⟩

/-- What was gathered is read, if it can be synced. -/
lemma Gathers.read {h : Handle} {content : Bytes} (gathers : fs.Gathers path h content)
    (sync : fs.sync h = .ok ()) : fs.read path = .ok content := by
  unfold FileSystem.sync at sync
  split at sync
  · rename_i bytes x hnode
    rw [FileSystem.read, gathers.find]
    dsimp only
    rw [content_file hnode, gathers.content bytes x hnode]
  · simp at sync

/-- Writing at the end of a file appends. -/
lemma write_end {n : Nat} {old bytes : Bytes} {x : Bool} {h : Handle}
    (holds : fs.node? n = some (.file old x))
    (write : fs.write ⟨n, old.length⟩ bytes = .ok (h, fs')) :
    h = ⟨n, (old ++ bytes).length⟩ ∧ fs'.node? n = some (.file (old ++ bytes) x) := by
  cases writes_of_write write with
  | nothing hempty => simp [hempty, holds]
  | @rewritten _ _ hnode =>
    obtain ⟨rfl, rfl⟩ : old = _ ∧ x = _ := by simpa using holds.symm.trans hnode
    exact ⟨by simp, by rw [node?_spend, node?_setNode holds, if_pos rfl, overwrite_end]⟩
  | lost hother => exact absurd holds (hother old x)

/-- A regular file takes what there is room for. -/
lemma write_file {h : Handle} {old : Bytes} {x : Bool}
    (file : fs.node? h.node = some (.file old x)) {bytes : Bytes}
    (takes : fs.takes bytes.length) : ∃ h' fs', fs.write h bytes = .ok (h', fs') := by
  unfold FileSystem.write
  split
  · exact ⟨_, _, rfl⟩
  · rw [file]
    exact ⟨_, _, rfl⟩

/-- A write to a regular file without the room fails. -/
lemma write_full {h : Handle} {old : Bytes} {x : Bool}
    (file : fs.node? h.node = some (.file old x)) {bytes : Bytes}
    (full : ¬ fs.takes bytes.length) : fs.write h bytes = .error .deviceFull := by
  unfold FileSystem.write
  split
  · rename_i hempty
    rw [List.isEmpty_iff.mp hempty] at full
    exact absurd (by simp [FileSystem.takes]) full
  · rw [file]

@[simp] lemma takes_zero (fs : FileSystem) : fs.takes 0 = true := by simp [takes]

lemma takes_mono {n m : Nat} (le : n ≤ m) (takes : fs.takes m) : fs.takes n := by
  cases hroom : fs.room with
  | none => simp [FileSystem.takes, hroom]
  | some room =>
    have hm : m ≤ room := by simpa [FileSystem.takes, hroom] using takes
    simpa [FileSystem.takes, hroom] using Nat.le_trans le hm

lemma takes_spend {n m : Nat} (takes : fs.takes n) :
    (fs.spend n).takes m = fs.takes (n + m) := by
  cases hroom : fs.room with
  | none => simp [FileSystem.takes, spend, hroom]
  | some room =>
    have hn : n ≤ room := by simpa [FileSystem.takes, hroom] using takes
    have hiff : m ≤ room - n ↔ n + m ≤ room := by omega
    simp [FileSystem.takes, spend, hroom, hiff]

/-- What a regular file took is no longer there for others. -/
lemma takes_of_write {h h' : Handle} {old bytes : Bytes} {x : Bool}
    (file : fs.node? h.node = some (.file old x)) (write : fs.write h bytes = .ok (h', fs'))
    (n : Nat) : fs'.takes n = fs.takes (bytes.length + n) := by
  cases writes_of_write write with
  | nothing hempty => simp [hempty]
  | rewritten hnode htakes => exact takes_spend htakes
  | lost hother => exact absurd file (hother old x)

/-! ### Removing -/

lemma lookup_filter_ne (entries : List (String × Nat)) (name other : String) :
    (entries.filter fun e => e.1 != name).lookup other =
      if other = name then none else entries.lookup other := by
  induction entries with
  | nil => simp
  | cons e rest ih =>
    obtain ⟨n, i⟩ := e
    rw [List.filter_cons, lookup_entry]
    by_cases hn : n = name
    · subst hn
      rw [if_neg (by simp), ih]
      by_cases ho : other = n
      · rw [if_pos ho, if_pos ho]
      · rw [if_neg ho, if_neg ho, if_neg ho]
    · rw [if_pos (by simpa using hn), lookup_entry, ih]
      by_cases ho : other = n
      · rw [if_pos ho, if_neg (fun h => hn (ho.symm.trans h)), if_pos ho]
      · rw [if_neg ho, if_neg ho]

/-- Removing takes one entry away, which names no directory. -/
lemma lacks_of_remove (remove : fs.remove path = .ok fs') :
    ∃ i d name, fs.resolve false path = .ok (.found i (some (d, name))) ∧
      (∀ parent entries, fs.node? i ≠ some (.directory parent entries)) ∧
      fs' = fs.removeEntry d name ∧ Lacks fs fs' d name i := by
  unfold FileSystem.remove at remove
  split at remove
  · simp at remove
  · simp at remove
  · rename_i i entry hfound
    split at remove
    · simp at remove
    · rename_i d name hother
      obtain rfl : _ = fs' := by simpa using remove
      refine ⟨i, d, name, hfound, fun parent entries h => hother parent entries h, rfl, ?_⟩
      obtain ⟨parent, lookup, hview, hname⟩ := holds_of_resolve hfound
      obtain ⟨entries, hd, rfl⟩ := view_directory hview
      have hremove : fs.removeEntry d name =
          fs.setNode d (.directory parent (entries.filter fun e => e.1 != name)) := by
        rw [removeEntry, hd]
      rw [hremove]
      refine ⟨rfl, rfl, fun j hj => ?_, parent, (entries.lookup ·),
        ((entries.filter fun e => e.1 != name).lookup ·), hview, ?_, hname, ?_, ?_⟩
      · rw [view, view, node?_setNode hd, if_neg (Ne.symm hj)]
      · rw [view, node?_setNode hd, if_pos rfl]
      · dsimp only
        rw [lookup_filter_ne, if_pos rfl]
      · intro other hne
        dsimp only
        rw [lookup_filter_ne, if_neg hne]
    · simp at remove

/-! ### Room -/

lemma room_addEntry (d : Nat) (name : String) (i : Nat) :
    (fs.addEntry d name i).room = fs.room := by
  unfold addEntry
  split <;> rfl

lemma room_removeEntry (d : Nat) (name : String) : (fs.removeEntry d name).room = fs.room := by
  unfold removeEntry
  split <;> rfl

/-- Opening a file takes no room. -/
lemma takes_of_create {h : Handle} (create : fs.create path = .ok (h, fs')) (n : Nat) :
    fs'.takes n = fs.takes n := by
  cases creates_of_create create with
  | made hvacant =>
    rw [FileSystem.takes, addFile, room_addEntry]
    rfl
  | emptied hfind hnode => rfl
  | kept hfind hnode => rfl

/-- Removing gives no room back: how much files take is not up to what others leave. -/
lemma takes_removeIfPossible (fs : FileSystem) (path : String) (n : Nat) :
    (fs.removeIfPossible path).takes n = fs.takes n := by
  unfold removeIfPossible
  split
  · rename_i fs' hremove
    obtain ⟨i, d, name, -, -, rfl, -⟩ := lacks_of_remove hremove
    rw [FileSystem.takes, room_removeEntry, FileSystem.takes]
  · rfl

end FileSystem

end DeviceUpdate
