import DeviceUpdate.Proofs.FileSystem.Content
import DeviceUpdate.Proofs.Path

/-!
# What removing takes away

Removing a file takes one entry away. A path that goes by another entry leads where it led before,
and a path that went by this one leads nowhere.
-/

namespace DeviceUpdate.FileSystem

variable {fs fs' : FileSystem} {path other : String}

lemma find_of_remove (remove : fs.remove path = .ok fs') (other : String) :
    fs'.find other = fs.find other ∨ fs'.find other = .error .notFound := by
  obtain ⟨i, d, name, -, -, -, hlacks⟩ := lacks_of_remove remove
  have hapart := hlacks.resolve true other
  rw [find, find]
  generalize fs.resolve true other = r at hapart ⊢
  generalize fs'.resolve true other = r' at hapart ⊢
  cases hapart with
  | elsewhere found vacant => exact .inl rfl
  | through behind => exact .inr rfl
  | ends behind => exact .inr rfl

/-- Removing changes no content: only a directory changes. -/
lemma content_of_remove (remove : fs.remove path = .ok fs') (i : Nat) :
    fs'.content i = fs.content i := by
  obtain ⟨j, d, name, -, -, rfl, hlacks⟩ := lacks_of_remove remove
  obtain ⟨parent, lookup, -, hview, -⟩ := hlacks.directory
  obtain ⟨entries, hd, -⟩ := view_directory hview
  rw [removeEntry, hd]
  dsimp only
  rw [content, content, node?_setNode hd]
  by_cases hi : d = i
  · subst hi
    rw [if_pos rfl, hd]
  · rw [if_neg hi]

/-- Removing changes directories only. -/
lemma node?_removeIfPossible {i : Nat} {content : Bytes} {x : Bool}
    (file : fs.node? i = some (.file content x)) (path : String) :
    (fs.removeIfPossible path).node? i = fs.node? i := by
  unfold removeIfPossible
  split
  · rename_i fs' hremove
    obtain ⟨j, d, name, -, -, rfl, hlacks⟩ := lacks_of_remove hremove
    obtain ⟨parent, lookup, -, hview, -⟩ := hlacks.directory
    obtain ⟨entries, hd, -⟩ := view_directory hview
    rw [removeEntry, hd]
    dsimp only
    rw [node?_setNode hd, if_neg]
    rintro rfl
    simp [file] at hd
  · rfl

/-- The path leads to the same node, which holds the same. -/
structure Keeps (fs fs' : FileSystem) (path : String) : Prop where
  find : fs'.find path = fs.find path
  read : fs'.read path = fs.read path

lemma keeps_of_remove (remove : fs.remove path = .ok fs')
    (same : fs'.find other = fs.find other) : Keeps fs fs' other := by
  refine ⟨same, ?_⟩
  rw [FileSystem.read, FileSystem.read, same]
  cases fs.find other with
  | error e => rfl
  | ok i => exact content_of_remove remove i

/-- Removing keeps a path, or takes it away. -/
theorem removeIfPossible_keeps (fs : FileSystem) (path other : String) :
    Keeps fs (fs.removeIfPossible path) other ∨
      (fs.removeIfPossible path).find other = .error .notFound := by
  unfold removeIfPossible
  split
  · rename_i fs' hremove
    rcases find_of_remove hremove other with hsame | hgone
    · exact .inl (keeps_of_remove hremove hsame)
    · exact .inr hgone
  · exact .inl ⟨rfl, rfl⟩

/-! ### Names -/

/-- The path ends at a link. -/
def isLink (fs : FileSystem) (path : String) : Bool :=
  match fs.resolve false path with
  | .ok (.found i _) =>
    match fs.node? i with
    | some (.link _) => true
    | _ => false
  | _ => false

lemma isLink_iff : fs.isLink path = true ↔ ∃ i entry target,
    fs.resolve false path = .ok (.found i entry) ∧ fs.view i = .link target := by
  unfold isLink view
  cases hfound : fs.resolve false path with
  | error e => simp
  | ok place =>
    cases place with
    | vacant d name => simp
    | found i entry => cases hnode : fs.node? i with
      | none => simp [hnode]
      | some node => cases node <;> simp [hnode]

lemma not_link {i : Nat} {entry : Option (Nat × String)} (h : fs.isLink path = false)
    (found : fs.resolve false path = .ok (.found i entry)) (target : String) :
    fs.view i ≠ .link target := by
  intro hview
  rw [isLink_iff.mpr ⟨i, entry, target, found, hview⟩] at h
  cases h

/-- Without a link at its end a path leads to the same place, whether a last link is followed or
not. -/
lemma resolve_of_not_link (h : fs.isLink path = false) :
    fs.resolve true path = fs.resolve false path := by
  have hfollows := follows_of_resolve fs path
  generalize hfirst : fs.resolve false path = first at hfollows
  cases hfollows with
  | same plain => rfl
  | link view on => exact absurd view (not_link h hfirst _)

/-- A link leads where its text does. -/
lemma resolve_of_link {i d : Nat} {name target : String}
    (found : fs.resolve false path = .ok (.found i (some (d, name))))
    (link : fs.view i = .link target) : ∃ links, fs.resolve true path =
      fs.jump true links (if Path.isAbsolute target then fs.root else d)
        (Path.components target) := by
  have hfollows := follows_of_resolve fs path
  rw [found] at hfollows
  generalize fs.resolve true path = r at hfollows ⊢
  cases hfollows with
  | same plain => exact absurd link (plain i _ target rfl)
  | link view on =>
    obtain rfl := View.link.inj (view.symm.trans link)
    exact ⟨_, on⟩

section Names

variable {names names' : List String} {name name' : String} {bytes : Bytes}

/-- A file that is removed is gone. -/
lemma find_removeIfPossible_self (last : Path.components path = names ++ [name])
    (real : name ≠ "." ∧ name ≠ "..") (link : fs.isLink path = false)
    (there : fs.read path = .ok bytes) :
    (fs.removeIfPossible path).find path = .error .notFound := by
  obtain ⟨i, hfind, hfile⟩ := find_of_read there
  obtain ⟨entry, hfound⟩ := resolve_of_find hfind
  have hfirst := (resolve_of_not_link link).symm.trans hfound
  obtain ⟨d, rfl⟩ : ∃ d, entry = some (d, name) := by
    rcases ends_of_resolve last hfirst with hd | ⟨-, hdot | hdots⟩
    · exact hd
    · exact absurd hdot real.1
    · exact absurd hdots real.2
  have hremove : fs.remove path = .ok (fs.removeEntry d name) := by
    unfold remove
    rw [hfirst]
    dsimp only
    split
    · rename_i parent entries hnode
      exact absurd hnode (hfile parent entries)
    · rename_i hsome _
      obtain ⟨rfl, rfl⟩ := Prod.mk.inj (Option.some.inj hsome)
      rfl
    · rename_i hnone _
      cases hnone
  obtain ⟨j, d', name', hfirst', -, -, hlacks⟩ := lacks_of_remove hremove
  obtain ⟨rfl, rfl, rfl⟩ : i = j ∧ d = d' ∧ name = name' := by
    rw [hfirst] at hfirst'
    simpa using hfirst'
  rw [removeIfPossible_of_ok hremove, find]
  have hapart := hlacks.resolve true path
  generalize (fs.removeEntry d name).resolve true path = r at hapart ⊢
  rw [hfound] at hapart
  cases hapart with
  | elsewhere found vacant => exact absurd rfl (found i)
  | through behind => rfl
  | ends behind => rfl

/-- A path on which links come to an end, and which leads to no directory. -/
def Plain (fs : FileSystem) (path : String) : Prop :=
  fs.find path ≠ .error .tooManyLinks ∧ fs.isDirectory path = false

/-- A path that goes by the entry of another one ends there, and leads where that one does. -/
lemma resolve_of_behind {follow : Bool} {d i j links : Nat} {entry : Option (Nat × String)}
    {rest : List String} (first : fs.resolve false path = .ok (.found i (some (d, name))))
    (plain : ∀ parent lookup, fs.view i ≠ .directory parent lookup)
    (leads : fs.isLink path = true → fs.Plain path)
    (behind : fs.walkBehind follow (fs.jump follow links) d i name rest = .ok (.found j entry)) :
    rest = [] ∧ fs.resolve follow path = .ok (.found j entry) := by
  cases hview : fs.view i with
  | directory parent lookup => exact absurd hview (plain parent lookup)
  | link target =>
    simp only [walkBehind, hview] at behind
    split at behind
    · rename_i hend
      obtain ⟨hrest, rfl⟩ : rest = [] ∧ follow = false := by simpa using hend
      exact ⟨hrest, first.trans behind⟩
    · rename_i hend
      have hon : rest = [] → follow = true := by simpa using hend
      obtain ⟨links', hresolve⟩ := resolve_of_link first hview
      obtain ⟨hlimit, hdirectory⟩ := leads (isLink_iff.mpr ⟨i, _, target, first, hview⟩)
      rcases ahead_of_jump hon behind links' with
        hlong | ⟨hrest, hplace⟩ | ⟨k, e, parent, lookup, hk, hv⟩
      · exact absurd (by rw [find, hresolve, hlong]) hlimit
      · obtain rfl := hon hrest
        exact ⟨hrest, hresolve.trans hplace⟩
      · rw [isDirectory_iff.mpr ⟨k, parent, lookup, by rw [find, hresolve, hk], hv⟩] at hdirectory
        cases hdirectory
  | leaf =>
    cases rest with
    | cons other rest =>
      rw [walkBehind_leaf_cons hview] at behind
      cases behind
    | nil =>
      rw [walkBehind_leaf hview] at behind
      have hnot : fs.isLink path = false := by
        rw [← Bool.not_eq_true, isLink_iff]
        rintro ⟨k, e, target, hk, hlink⟩
        obtain ⟨rfl, -⟩ : i = k ∧ _ := by simpa [first] using hk
        rw [hview] at hlink
        cases hlink
      refine ⟨rfl, ?_⟩
      rw [← behind, ← first]
      cases follow with
      | false => rfl
      | true => exact resolve_of_not_link hnot

/-- A path that is no link and has another name does not end at the entry. -/
lemma not_vacant_of_not_link {d i j : Nat} {entry : Option (Nat × String)}
    (lacks : Lacks fs fs' d name i) (plain : ∀ parent lookup, fs.view i ≠ .directory parent lookup)
    (last : Path.components other = names' ++ [name']) (ne : name ≠ name')
    (link : fs.isLink other = false) (found : fs.resolve true other = .ok (.found j entry)) :
    fs'.resolve true other ≠ .ok (.vacant d name) := by
  intro hvacant
  have hfirst := (resolve_of_not_link link).symm.trans found
  have hlink (target : String) : fs.view j ≠ .link target := not_link link hfirst target
  have hfollows := follows_of_resolve fs' other
  have hapart := lacks.resolve false other
  rw [hfirst] at hapart
  rw [hvacant] at hfollows
  generalize fs'.resolve false other = first at hapart hfollows
  cases hapart with
  | elsewhere found vacant =>
    cases hfollows with
    | link view on =>
      rcases lacks.view_cases j with ⟨hsame, -⟩ | ⟨parent, lookup, lookup', -, hview, -⟩
      · exact hlink _ (hsame.symm.trans view)
      · rw [hview] at view
        cases view
  | through behind => cases hfollows
  | ends behind =>
    cases hview : fs.view i with
    | directory parent lookup => exact plain parent lookup hview
    | link target =>
      simp only [walkBehind, hview, List.isEmpty_nil, Bool.not_false, Bool.and_self, if_true,
        Except.ok.injEq, Place.found.injEq] at behind
      exact hlink target (behind.1 ▸ hview)
    | leaf =>
      rw [walkBehind_leaf hview] at behind
      obtain ⟨rfl, rfl⟩ : j = i ∧ entry = some (d, name) := by simpa using behind
      rcases ends_of_resolve last hfirst with ⟨e, he⟩ | ⟨hnone, -⟩
      · simp only [Option.some.injEq, Prod.mk.injEq] at he
        exact ne he.2
      · cases hnone

/-- A file is kept when one of another name is removed, unless its own name is a link that leads
there. -/
lemma keeps_removeIfPossible (last : Path.components path = names ++ [name])
    (last' : Path.components other = names' ++ [name']) (ne : name ≠ name')
    (leads : fs.isLink path = true → fs.Plain path)
    (apart : fs.isLink other = true → fs.find other ≠ fs.find path)
    (there : fs.read other = .ok bytes) : Keeps fs (fs.removeIfPossible path) other := by
  unfold removeIfPossible
  split
  · rename_i fs' hremove
    obtain ⟨i, d, n, hfirst, hfile, -, hlacks⟩ := lacks_of_remove hremove
    obtain rfl : n = name := by
      rcases ends_of_resolve last hfirst with ⟨e, he⟩ | ⟨hnone, -⟩
      · simp only [Option.some.injEq, Prod.mk.injEq] at he
        exact he.2
      · simp at hnone
    have hplain (parent : Nat) (lookup : String → Option Nat) :
        fs.view i ≠ .directory parent lookup := by
      intro hview
      obtain ⟨entries, hnode, -⟩ := view_directory hview
      exact hfile parent entries hnode
    obtain ⟨j, hfind, -⟩ := find_of_read there
    obtain ⟨entry, hfound⟩ := resolve_of_find hfind
    refine keeps_of_remove hremove ?_
    have hapart := hlacks.resolve true other
    rw [find, find]
    generalize hlost : fs'.resolve true other = r' at hapart ⊢
    rw [hfound] at hapart ⊢
    cases hapart with
    | elsewhere found vacant => rfl
    | through behind => cases (resolve_of_behind hfirst hplain leads behind.symm).1
    | ends behind =>
      obtain ⟨-, hpath⟩ := resolve_of_behind hfirst hplain leads behind.symm
      refine absurd hlost (not_vacant_of_not_link hlacks hplain last' ne ?_ hfound)
      refine Bool.eq_false_iff.mpr fun hlink => apart hlink (hfind.trans ?_)
      rw [find, hpath]
  · exact ⟨rfl, rfl⟩

end Names

end DeviceUpdate.FileSystem
