import DeviceUpdate.FileSystem.Operations
import Mathlib.Tactic.Lemma

/-!
# Where paths lead

A walk looks at directories and links only. So it goes the same way in file systems that differ in
the content of files, and in file systems that differ by one directory entry it goes the same way
unless it comes by that entry.
-/

namespace DeviceUpdate

/-- What a walk sees of a node. -/
inductive View where
  | directory (parent : Nat) (lookup : String → Option Nat)
  | link (target : String)
  /-- nothing to go on from -/
  | leaf

namespace FileSystem

variable {fs fs' : FileSystem} {follow : Bool}

def view (fs : FileSystem) (i : Nat) : View :=
  match fs.node? i with
  | some (.directory parent entries) => .directory parent (entries.lookup ·)
  | some (.link target) => .link target
  | _ => .leaf

lemma view_directory {i parent : Nat} {lookup : String → Option Nat}
    (h : fs.view i = .directory parent lookup) :
    ∃ entries, fs.node? i = some (.directory parent entries) ∧ lookup = (entries.lookup ·) := by
  unfold view at h
  split at h
  · rename_i entries hnode
    obtain ⟨rfl, rfl⟩ := by simpa using h
    exact ⟨entries, hnode, rfl⟩
  · simp at h
  · simp at h

/-- Goes on behind the entry `name` of the directory `here`, which names the node `next`. -/
def walkBehind (fs : FileSystem) (follow : Bool)
    (jump : Nat → List String → Except FileError Place) (here next : Nat) (name : String)
    (rest : List String) : Except FileError Place :=
  match fs.view next with
  | .link target =>
    if rest.isEmpty && !follow then .ok (.found next (some (here, name)))
    else
      jump (if Path.isAbsolute target then fs.root else here) (Path.components target ++ rest)
  | _ => fs.walkNames follow jump next (some (here, name)) rest

lemma walkNames_cons (jump : Nat → List String → Except FileError Place) (here : Nat)
    (entry : Option (Nat × String)) (name : String) (rest : List String) :
    fs.walkNames follow jump here entry (name :: rest) =
      match fs.view here with
      | .directory parent lookup =>
        if name = "." then fs.walkNames follow jump here none rest
        else if name = ".." then fs.walkNames follow jump parent none rest
        else if nameLimit < name.utf8ByteSize then .error .nameTooLong
        else
          match lookup name with
          | none => if rest.isEmpty then .ok (.vacant here name) else .error .notFound
          | some next => fs.walkBehind follow jump here next name rest
      | _ => .error .notDirectory := by
  rw [walkNames, view]
  cases fs.node? here with
  | none => rfl
  | some node =>
    cases node with
    | directory parent entries =>
      dsimp only
      cases entries.lookup name with
      | none => rfl
      | some next =>
        dsimp only [walkBehind, view]
        cases fs.node? next with
        | none => rfl
        | some node => cases node <;> rfl
    | _ => rfl

@[simp] lemma walkNames_nil (jump : Nat → List String → Except FileError Place) (here : Nat)
    (entry : Option (Nat × String)) :
    fs.walkNames follow jump here entry [] = .ok (.found here entry) := rfl

/-- Leaves a link on the way to a walk that may follow `links` more. -/
def jump (fs : FileSystem) (follow : Bool) :
    (links start : Nat) → (names : List String) → Except FileError Place
  | 0, _, _ => .error .tooManyLinks
  | links + 1, start, names => fs.walk follow links start names

lemma walk_eq (links start : Nat) (names : List String) :
    fs.walk follow links start names =
      fs.walkNames follow (fs.jump follow links) start none names := by
  cases links <;> rfl

/-! ### The same way -/

/-- The file systems differ at most in what files hold. -/
structure Alike (fs fs' : FileSystem) : Prop where
  root : fs'.root = fs.root
  current : fs'.current = fs.current
  view : ∀ i, fs'.view i = fs.view i

lemma Alike.trans {fs'' : FileSystem} (h : Alike fs fs') (k : Alike fs' fs'') : Alike fs fs'' :=
  ⟨k.root.trans h.root, k.current.trans h.current, fun i => (k.view i).trans (h.view i)⟩

lemma alike_spend (fs : FileSystem) (n : Nat) : Alike fs (fs.spend n) :=
  ⟨rfl, rfl, fun _ => rfl⟩

lemma walkNames_alike (h : Alike fs fs') {jump jump' : Nat → List String → Except FileError Place}
    (jumps : ∀ start names, jump' start names = jump start names) (here : Nat)
    (entry : Option (Nat × String)) (names : List String) :
    fs'.walkNames follow jump' here entry names = fs.walkNames follow jump here entry names := by
  induction names generalizing here entry with
  | nil => rfl
  | cons name rest ih =>
    simp only [walkNames_cons, walkBehind, h.view, h.root, jumps, ih]

lemma Alike.walk (h : Alike fs fs') (links start : Nat) (names : List String) :
    fs'.walk follow links start names = fs.walk follow links start names := by
  induction links generalizing start names with
  | zero => exact walkNames_alike h (fun _ _ => rfl) start none names
  | succ links ih => exact walkNames_alike h ih start none names

lemma Alike.resolve (h : Alike fs fs') (path : String) :
    fs'.resolve follow path = fs.resolve follow path := by
  simp only [FileSystem.resolve, h.root, h.current, h.walk]

lemma Alike.find (h : Alike fs fs') (path : String) : fs'.find path = fs.find path := by
  rw [FileSystem.find, FileSystem.find, h.resolve]

/-! ### Where a walk ends -/

/-- The place is as the directories say. -/
def Holds (fs : FileSystem) : Place → Prop
  | .found i (some (d, name)) =>
    ∃ parent lookup, fs.view d = .directory parent lookup ∧ lookup name = some i
  | .found _ none => True
  | .vacant d name =>
    ∃ parent lookup, fs.view d = .directory parent lookup ∧ lookup name = none

lemma holds_of_walkNames {jump : Nat → List String → Except FileError Place}
    (jumps : ∀ start names place, jump start names = .ok place → fs.Holds place) {here : Nat}
    {entry : Option (Nat × String)} {names : List String} {place : Place}
    (start : fs.Holds (.found here entry))
    (h : fs.walkNames follow jump here entry names = .ok place) : fs.Holds place := by
  induction names generalizing here entry with
  | nil =>
    obtain rfl : _ = place := by simpa using h
    exact start
  | cons name rest ih =>
    rw [walkNames_cons] at h
    split at h
    · rename_i parent lookup hview
      split at h
      · exact ih (by trivial) h
      · split at h
        · exact ih (by trivial) h
        · split at h
          · simp at h
          · split at h
            · rename_i hnone
              split at h
              · obtain rfl : _ = place := by simpa using h
                exact ⟨parent, lookup, hview, hnone⟩
              · simp at h
            · rename_i next hsome
              have hentry : fs.Holds (.found next (some (here, name))) :=
                ⟨parent, lookup, hview, hsome⟩
              unfold walkBehind at h
              split at h
              · split at h
                · obtain rfl : _ = place := by simpa using h
                  exact hentry
                · exact jumps _ _ _ h
              · exact ih hentry h
    · simp at h

lemma holds_of_walk {links start : Nat} {names : List String} {place : Place}
    (h : fs.walk follow links start names = .ok place) : fs.Holds place := by
  induction links generalizing start names place with
  | zero => exact holds_of_walkNames (by simp) (by trivial) h
  | succ links ih => exact holds_of_walkNames (fun _ _ _ hj => ih hj) (by trivial) h

/-- A path that can be looked up is walked, whether a last link is followed or not. -/
lemma resolve_of_ok {path : String} {place : Place} (h : fs.resolve follow path = .ok place)
    {other : Bool} : fs.resolve other path = fs.walk other linkLimit
      (if Path.isAbsolute path then fs.root else fs.current) (Path.components path) := by
  unfold resolve at h ⊢
  by_cases hnul : path.toList.contains '\x00'
  · simp only [hnul, if_true, reduceCtorEq] at h
  rw [if_neg hnul] at h ⊢
  by_cases hempty : path.isEmpty
  · simp only [hempty, if_true, reduceCtorEq] at h
  rw [if_neg hempty] at h ⊢
  by_cases hlong : pathLimit < path.utf8ByteSize
  · simp only [hlong, if_true, reduceCtorEq] at h
  rw [if_neg hlong]

lemma holds_of_resolve {path : String} {place : Place} (h : fs.resolve follow path = .ok place) :
    fs.Holds place := by
  rw [resolve_of_ok h] at h
  exact holds_of_walk h

/-- The entry of this name, unless the name stands for a directory by itself. -/
def Ends (name : String) (entry : Option (Nat × String)) : Prop :=
  (∃ d, entry = some (d, name)) ∨ entry = none ∧ (name = "." ∨ name = "..")

/-- A walk that does not follow a last link ends at the last name. -/
lemma ends_of_walkNames {jump : Nat → List String → Except FileError Place} {name : String}
    (jumps : ∀ start names i entry, jump start (names ++ [name]) = .ok (.found i entry) →
      Ends name entry) {here i : Nat} {entry entry' : Option (Nat × String)}
    {names : List String}
    (h : fs.walkNames false jump here entry (names ++ [name]) = .ok (.found i entry')) :
    Ends name entry' := by
  induction names generalizing here entry with
  | nil =>
    rw [List.nil_append, walkNames_cons] at h
    simp only [List.isEmpty_nil, walkBehind, Bool.not_false, Bool.and_self, if_true,
      walkNames_nil] at h
    grind [Ends]
  | cons other rest ih =>
    rw [List.cons_append, walkNames_cons] at h
    split at h
    · split at h
      · exact ih h
      · split at h
        · exact ih h
        · split at h
          · simp at h
          · split at h
            · simp at h
            · unfold walkBehind at h
              split at h
              · simp only [List.append_eq_nil_iff, List.isEmpty_iff, List.cons_ne_self,
                  Bool.and_eq_true, and_false, false_and, if_false] at h
                rw [← List.append_assoc] at h
                exact jumps _ _ _ _ h
              · exact ih h
    · simp at h

lemma ends_of_walk {links start i : Nat} {names : List String} {name : String}
    {entry : Option (Nat × String)}
    (h : fs.walk false links start (names ++ [name]) = .ok (.found i entry)) :
    Ends name entry := by
  induction links generalizing start names i entry with
  | zero => exact ends_of_walkNames (by simp) h
  | succ links ih => exact ends_of_walkNames (fun _ _ _ _ hj => ih hj) h

lemma ends_of_resolve {path name : String} {names : List String} {i : Nat}
    {entry : Option (Nat × String)} (last : Path.components path = names ++ [name])
    (h : fs.resolve false path = .ok (.found i entry)) : Ends name entry := by
  rw [resolve_of_ok h, last] at h
  exact ends_of_walk h

/-- Where a walk ends, and where it ends if it follows a last link. -/
inductive Follows (fs : FileSystem) : Except FileError Place → Except FileError Place → Prop
  | same {r : Except FileError Place}
      (plain : ∀ i entry target, r = .ok (.found i (some entry)) → fs.view i ≠ .link target) :
      Follows fs r r
  | link {i d links : Nat} {name target : String} {r : Except FileError Place}
      (view : fs.view i = .link target)
      (on : r = fs.jump true links (if Path.isAbsolute target then fs.root else d)
        (Path.components target)) : Follows fs (.ok (.found i (some (d, name)))) r

lemma follows_of_walkNames {links : Nat} {jump : Nat → List String → Except FileError Place}
    (jumps : ∀ start names, fs.Follows (jump start names) (fs.jump true links start names))
    {here : Nat} {entry : Option (Nat × String)}
    (start : ∀ e target, entry = some e → fs.view here ≠ .link target) (names : List String) :
    fs.Follows (fs.walkNames false jump here entry names)
      (fs.walkNames true (fs.jump true links) here entry names) := by
  have herror (e : FileError) : fs.Follows (.error e) (.error e) := .same (by simp)
  induction names generalizing here entry with
  | nil =>
    refine .same fun i e target hi => ?_
    obtain ⟨rfl, rfl⟩ : here = i ∧ entry = some e := by simpa using hi
    exact start e target rfl
  | cons name rest ih =>
    rw [walkNames_cons, walkNames_cons]
    cases fs.view here with
    | link target => exact herror _
    | leaf => exact herror _
    | directory parent lookup =>
      dsimp only
      split
      · exact ih (by simp)
      · split
        · exact ih (by simp)
        · split
          · exact herror _
          · cases lookup name with
            | none =>
              dsimp only
              split
              · exact .same (by simp)
              · exact herror _
            | some next =>
              dsimp only [walkBehind]
              cases hnext : fs.view next with
              | link target =>
                cases rest with
                | nil => exact .link hnext (congrArg (fs.jump true links _) (List.append_nil _))
                | cons other rest => exact jumps _ _
              | directory _ _ => exact ih (by simp [hnext])
              | leaf => exact ih (by simp [hnext])

lemma follows_of_walk (links start : Nat) (names : List String) :
    fs.Follows (fs.walk false links start names) (fs.walk true links start names) := by
  have hlimit : fs.Follows (.error .tooManyLinks) (.error .tooManyLinks) := .same (by simp)
  induction links generalizing start names with
  | zero =>
    rw [walk_eq, walk_eq]
    exact follows_of_walkNames (fun _ _ => hlimit) (fun _ _ h => by cases h) names
  | succ links ih =>
    rw [walk_eq, walk_eq]
    exact follows_of_walkNames ih (fun _ _ h => by cases h) names

lemma follows_of_resolve (fs : FileSystem) (path : String) :
    fs.Follows (fs.resolve false path) (fs.resolve true path) := by
  have herror (e : FileError) : fs.Follows (.error e) (.error e) := .same (by simp)
  unfold resolve
  split
  · exact herror _
  · split
    · exact herror _
    · split
      · exact herror _
      · exact follows_of_walk _ _ _

/-- What a walk through the first names comes to, when one that goes on through the rest ends at
the place. -/
def Ahead (fs : FileSystem) (rest : List String) (place : Place)
    (r : Except FileError Place) : Prop :=
  r = .error .tooManyLinks ∨ rest = [] ∧ r = .ok place ∨
    ∃ i entry parent lookup, r = .ok (.found i entry) ∧ fs.view i = .directory parent lookup

lemma ahead_of_walkNames {rest : List String} {place : Place} {links : Nat}
    {jump : Nat → List String → Except FileError Place} (on : rest = [] → follow = true)
    (jumps : ∀ start names, jump start (names ++ rest) = .ok place →
      fs.Ahead rest place (fs.jump true links start names)) {here : Nat}
    {entry : Option (Nat × String)} {names : List String}
    (h : fs.walkNames follow jump here entry (names ++ rest) = .ok place) :
    fs.Ahead rest place (fs.walkNames true (fs.jump true links) here entry names) := by
  induction names generalizing here entry with
  | nil =>
    cases rest with
    | nil => exact .inr (.inl ⟨rfl, h⟩)
    | cons other rest =>
      rw [List.nil_append, walkNames_cons] at h
      split at h
      · rename_i hview
        exact .inr (.inr ⟨here, entry, _, _, rfl, hview⟩)
      · simp at h
  | cons name names ih =>
    rw [List.cons_append, walkNames_cons] at h
    rw [walkNames_cons]
    cases hview : fs.view here with
    | link target => simp [hview] at h
    | leaf => simp [hview] at h
    | directory parent lookup =>
      simp only [hview] at h
      dsimp only
      by_cases hdot : name = "."
      · rw [if_pos hdot] at h ⊢
        exact ih h
      rw [if_neg hdot] at h ⊢
      by_cases hdots : name = ".."
      · rw [if_pos hdots] at h ⊢
        exact ih h
      rw [if_neg hdots] at h ⊢
      by_cases hlong : nameLimit < name.utf8ByteSize
      · simp [hlong] at h
      rw [if_neg hlong] at h ⊢
      cases hentry : lookup name with
      | none =>
        simp only [hentry] at h
        split at h
        · rename_i hempty
          obtain ⟨rfl, rfl⟩ : names = [] ∧ rest = [] := by simpa using hempty
          exact .inr (.inl ⟨rfl, h⟩)
        · simp at h
      | some next =>
        simp only [hentry, walkBehind] at h
        dsimp only [walkBehind]
        cases hnext : fs.view next with
        | link target =>
          -- the link is followed, as names come behind it or a last link is followed too
          have hfollow : ((names ++ rest).isEmpty && !follow) = false := by
            cases rest with
            | nil => simp [on rfl]
            | cons other rest => simp
          simp only [hnext, hfollow, Bool.not_true, Bool.and_false, Bool.false_eq_true,
            if_false] at h ⊢
          rw [← List.append_assoc] at h
          exact jumps _ _ h
        | directory _ _ =>
          rw [hnext] at h
          exact ih h
        | leaf =>
          rw [hnext] at h
          exact ih h

/-- The way through the first names is the same, whatever comes behind them and however many links
may be followed. -/
lemma ahead_of_jump {links start : Nat} {names rest : List String} {place : Place}
    (on : rest = [] → follow = true)
    (h : fs.jump follow links start (names ++ rest) = .ok place) (links' : Nat) :
    fs.Ahead rest place (fs.jump true links' start names) := by
  induction links generalizing start names links' with
  | zero => simp [jump] at h
  | succ links ih =>
    cases links' with
    | zero => exact .inl rfl
    | succ links' =>
      rw [jump, walk_eq] at h ⊢
      exact ahead_of_walkNames on (fun _ _ hj => ih hj links') h

/-! ### One entry less -/

/-- The second file system lacks the entry `name` of the directory `d`, which names the node
`next` in the first. What files hold does not matter. -/
structure Lacks (fs fs' : FileSystem) (d : Nat) (name : String) (next : Nat) : Prop where
  root : fs'.root = fs.root
  current : fs'.current = fs.current
  others : ∀ i, i ≠ d → fs'.view i = fs.view i
  directory : ∃ parent lookup lookup', fs.view d = .directory parent lookup ∧
    fs'.view d = .directory parent lookup' ∧ lookup name = some next ∧ lookup' name = none ∧
    ∀ other, other ≠ name → lookup' other = lookup other

/-- What a walk comes to with the entry, and without it. -/
inductive Apart (fs : FileSystem) (follow : Bool) (d : Nat) (name : String) (next : Nat) :
    Except FileError Place → Except FileError Place → Prop
  /-- the walk does not come by the entry -/
  | elsewhere {r : Except FileError Place} (found : ∀ i, r ≠ .ok (.found i (some (d, name))))
      (vacant : r ≠ .ok (.vacant d name)) : Apart fs follow d name next r r
  | through {r : Except FileError Place} {links : Nat} {other : String} {rest : List String}
      (behind : r = fs.walkBehind follow (fs.jump follow links) d next name (other :: rest)) :
      Apart fs follow d name next r (.error .notFound)
  | ends {r : Except FileError Place} {links : Nat}
      (behind : r = fs.walkBehind follow (fs.jump follow links) d next name []) :
      Apart fs follow d name next r (.ok (.vacant d name))

section Lacks

variable {d next : Nat} {name : String}

/-- A walk goes by the entry itself. -/
lemma apart_of_entry (links : Nat) (rest : List String) : Apart fs follow d name next
    (fs.walkBehind follow (fs.jump follow links) d next name rest)
      (if rest.isEmpty then .ok (.vacant d name) else .error .notFound) := by
  cases rest with
  | nil => exact .ends rfl
  | cons other rest => exact .through rfl

lemma walkBehind_leaf {jump : Nat → List String → Except FileError Place}
    (leaf : fs.view next = .leaf) :
    fs.walkBehind follow jump d next name [] = .ok (.found next (some (d, name))) := by
  rw [walkBehind, leaf]
  rfl

lemma walkBehind_leaf_cons {jump : Nat → List String → Except FileError Place}
    (leaf : fs.view next = .leaf) (other : String) (rest : List String) :
    fs.walkBehind follow jump d next name (other :: rest) = .error .notDirectory := by
  rw [walkBehind, leaf]
  simp only [walkNames_cons, leaf]

/-- A directory has the same entries in both file systems, but for the one that is lacking. -/
lemma Lacks.view_cases (h : Lacks fs fs' d name next) (i : Nat) :
    fs'.view i = fs.view i ∧ (∀ parent lookup, fs.view i ≠ .directory parent lookup) ∨
    ∃ parent lookup lookup', fs.view i = .directory parent lookup ∧
      fs'.view i = .directory parent lookup' ∧ ∀ other,
        (i = d → other ≠ name) ∧ lookup' other = lookup other ∨
        i = d ∧ other = name ∧ lookup other = some next ∧ lookup' other = none := by
  by_cases hi : i = d
  · subst hi
    obtain ⟨parent, lookup, lookup', hv, hv', hname, hname', hothers⟩ := h.directory
    refine .inr ⟨parent, lookup, lookup', hv, hv', fun other => ?_⟩
    by_cases hother : other = name
    · exact .inr ⟨rfl, hother, hother ▸ hname, hother ▸ hname'⟩
    · exact .inl ⟨fun _ => hother, hothers other hother⟩
  · have hsame := h.others i hi
    cases hv : fs.view i with
    | directory parent lookup =>
      exact .inr ⟨parent, lookup, lookup, rfl, hsame.trans hv, fun _ =>
        .inl ⟨fun heq => absurd heq hi, rfl⟩⟩
    | _ => exact .inl ⟨hsame.trans hv, by simp⟩

lemma apart_of_walkNames (h : Lacks fs fs' d name next) {links : Nat}
    (jumps : ∀ start names, Apart fs follow d name next (fs.jump follow links start names)
      (fs'.jump follow links start names))
    {here : Nat} {entry : Option (Nat × String)} (start : entry ≠ some (d, name))
    (names : List String) :
    Apart fs follow d name next (fs.walkNames follow (fs.jump follow links) here entry names)
      (fs'.walkNames follow (fs'.jump follow links) here entry names) := by
  have herror (e : FileError) : Apart fs follow d name next (.error e) (.error e) :=
    .elsewhere (by simp) (by simp)
  induction names generalizing here entry with
  | nil => exact .elsewhere (by simpa using start) (by simp)
  | cons other rest ih =>
    -- behind an entry that both file systems have
    have hbehind (i : Nat) (hother : here = d → other ≠ name) :
        Apart fs follow d name next (fs.walkBehind follow (fs.jump follow links) here i other rest)
          (fs'.walkBehind follow (fs'.jump follow links) here i other rest) := by
      have hentry : some (here, other) ≠ some (d, name) := by
        simpa using hother
      have hnames := @ih i _ hentry
      unfold walkBehind
      obtain ⟨hsame, -⟩ | ⟨parent, lookup, lookup', hv, hv', -⟩ := h.view_cases i
      · rw [hsame, h.root]
        split
        · split
          · exact .elsewhere (fun j hj => hentry (by simp at hj; simp [hj])) (by simp)
          · exact jumps _ _
        · exact hnames
      · rw [hv, hv']
        exact hnames
    rw [walkNames_cons, walkNames_cons]
    obtain ⟨hsame, hnone⟩ | ⟨parent, lookup, lookup', hv, hv', hentries⟩ := h.view_cases here
    · rw [hsame]
      cases hv : fs.view here with
      | directory parent lookup => exact absurd hv (hnone parent lookup)
      | link target => exact herror _
      | leaf => exact herror _
    · rw [hv, hv']
      dsimp only
      split
      · exact ih (by simp)
      · split
        · exact ih (by simp)
        · split
          · exact herror _
          · obtain ⟨hother, heq⟩ | ⟨rfl, rfl, hname, hname'⟩ := hentries other
            · rw [heq]
              cases lookup other with
              | none =>
                dsimp only
                split
                · exact .elsewhere (by simp) (by simpa using hother)
                · exact herror _
              | some i => exact hbehind i hother
            · rw [hname, hname']
              exact apart_of_entry links rest

lemma Lacks.walk (h : Lacks fs fs' d name next) (follow : Bool) (links start : Nat)
    (names : List String) :
    Apart fs follow d name next (fs.walk follow links start names)
      (fs'.walk follow links start names) := by
  induction links generalizing start names with
  | zero =>
    rw [walk_eq, walk_eq]
    exact apart_of_walkNames h (fun _ _ => .elsewhere (by simp [jump]) (by simp [jump])) (by simp)
      names
  | succ links ih =>
    rw [walk_eq, walk_eq]
    exact apart_of_walkNames h ih (by simp) names

lemma Lacks.resolve (h : Lacks fs fs' d name next) (follow : Bool) (path : String) :
    Apart fs follow d name next (fs.resolve follow path) (fs'.resolve follow path) := by
  have herror (e : FileError) : Apart fs follow d name next (.error e) (.error e) :=
    .elsewhere (by simp) (by simp)
  unfold FileSystem.resolve
  rw [h.root, h.current]
  split
  · exact herror _
  · split
    · exact herror _
    · split
      · exact herror _
      · exact h.walk follow linkLimit _ _

end Lacks

end FileSystem

end DeviceUpdate
