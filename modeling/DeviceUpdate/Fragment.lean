import DeviceUpdate.Manifest

/-!
# Fragments

A fragment is one archive of a package. All fragments that a manifest names are looked for in the
order of their indices, and the first that is missing is reported.
-/

namespace DeviceUpdate

structure Fragment where
  path : String
  fileName : String
  index : Nat
  deriving DecidableEq, Repr

/-- The fragment with this index, whether it is there or not. -/
def Manifest.fragment (m : Manifest) (index : Nat) : Fragment :=
  let fileName := m.fragmentFileName index
  ⟨Path.join m.sourceDirectory fileName, fileName, index⟩

namespace Fragment

def remove (fs : FileSystem) (f : Fragment) : Except UpdateError Unit × FileSystem :=
  match fs.remove f.path with
  | .ok fs => (.ok (), fs)
  | .error e => (.error (.file f.path e), fs)

/-- Looks for `count` fragments from `index` on, at one path at a time; `found` holds those before,
last first. -/
def searchFrom {μ : Type → Type} [Monad μ] (look : String → μ Bool) (m : Manifest)
    (found : List Fragment) (index : Nat) :
    (count : Nat) → μ (Except UpdateError (List Fragment))
  | 0 => return .ok found.reverse
  | count + 1 => do
    let f := m.fragment index
    if ← look f.path then searchFrom look m (f :: found) (index + 1) count
    else return .error (.missingFragment index f.path)

/-- The search in a file system, of which a look only asks whether a path is a file. -/
def locateFrom (fs : FileSystem) (m : Manifest) (found : List Fragment) (index count : Nat) :
    Except UpdateError (List Fragment) :=
  Id.run (searchFrom (fun path => pure (fs.isFile path)) m found index count)

/-- All fragments of a manifest, in the order of their indices. -/
def locate (fs : FileSystem) (m : Manifest) : Except UpdateError (List Fragment) :=
  locateFrom fs m [] 0 m.fragmentCount

end Fragment

/-- What is needed to assemble one package. -/
structure AssemblyPlan where
  destination : String
  /-- the package's file name, which is also the entry that every archive holds -/
  fileName : String
  manifest : Manifest
  fragments : List Fragment
  deriving DecidableEq, Repr

/-- The plan for a manifest: the package goes into `directory`. -/
def AssemblyPlan.prepare (fs : FileSystem) (m : Manifest) (directory : String) :
    Except UpdateError AssemblyPlan := do
  let fragments ← Fragment.locate fs m
  let fileName := m.packageFileName
  return ⟨Path.join directory fileName, fileName, m, fragments⟩

end DeviceUpdate
