import DeviceUpdate.Text.Blank

/-!
# Paths

A path is its text. An absolute path starts with a slash; joining an absolute path to a base
drops the base.
-/

namespace DeviceUpdate.Path

def isAbsolute (path : String) : Bool := path.toList.head? == some '/'

/-- The path of `name` as seen from `base`. -/
def join (base name : String) : String :=
  if isAbsolute name then name
  else if base.toList.isEmpty || base.toList.getLast? == some '/' then base ++ name
  else base ++ "/" ++ name

/-- The names to walk through. A slash at the end asks for a directory, which the name of the
directory itself stands for. -/
def components (path : String) : List String :=
  let names := ((Text.splitWhere (· == '/') path.toList).filter (!·.isEmpty)).map String.ofList
  if path.toList.getLast? == some '/' then names ++ ["."] else names

/-- Whether a name, as a part of a file name, leads nowhere else: it has no slash, no backslash and
no two dots in a row. -/
def isPlain (name : List Char) : Bool :=
  !name.contains '/' && !name.contains '\\' && !Text.contains ['.', '.'] name

end DeviceUpdate.Path
