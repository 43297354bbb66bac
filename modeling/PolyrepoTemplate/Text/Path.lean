import Mathlib.Data.List.DropRight

namespace Text.Path

def isAbsolute (path : String) : Bool := path.toList.head? == some '/'

def join (directory path : String) : String :=
  if isAbsolute path then path
  else if directory = "" ∨ directory.toList.getLast? = some '/' then directory ++ path
  else directory ++ "/" ++ path

theorem join_absolute {path : String} (h : isAbsolute path = true) (directory : String) :
    join directory path = path := if_pos h

def dirname (path : String) : String :=
  let head := path.toList.rdropWhile (· ≠ '/')
  let directory := head.rdropWhile (· = '/')
  String.ofList (if directory = [] then head else directory)

example : dirname "/site/editable.pth" = "/site" := by decide

/-- The directories above, innermost first, after one more component. -/
def enter (above : List (List Char)) (component : List Char) : List (List Char) :=
  if component = [] ∨ component = ['.'] then above
  else if component = ['.', '.'] then above.tail
  else component :: above

/-- An absolute path without `.`, `..` and repeated slashes. -/
def normalise (path : String) : String :=
  let components := ((path.toList.splitOn '/').foldl enter []).reverse
  String.ofList ('/' :: ['/'].intercalate components)

example : normalise "/work/./a/../src" = "/work/src" := by decide

end Text.Path
