import LoxLexer.Fault
import LoxLexer.Text.Utf8
/-! Finding a file from a working folder. A path is walked name by name; each name asks for a folder
to look it up in, and what is outside the working folder is known only by being folders. -/
namespace LoxLexer

structure Folder where
  files : List (List Text × Bytes)
  folders : List (List Text)
  deriving DecidableEq, Repr

inductive Place where
  | above (height : Nat)
  | inside (names : List Text)
  | file (bytes : Bytes)
  deriving DecidableEq, Repr

namespace Folder

def longestPath : Nat := 4095

def longestName : Nat := 255

def namesOf : Text → List Text
  | [] => [[]]
  | c :: rest =>
    match namesOf rest with
    | [] => [[c]]
    | name :: more => if c = '/' then [] :: name :: more else (c :: name) :: more

def stations : List Text → List Text → List (List Text)
  | _, [] => []
  | names, name :: rest =>
    if name = [] ∨ name = ['.'] then stations names rest
    else if name = ['.', '.'] then names.dropLast :: stations names.dropLast rest
    else (names ++ [name]) :: stations (names ++ [name]) rest

def ofPaths (files : List (Text × Bytes)) (folders : List Text) : Folder :=
  ⟨files.map fun file => (((stations [] (namesOf file.1)).getLast?).getD [], file.2),
    files.flatMap (fun file => (stations [] (namesOf file.1)).dropLast) ++
      folders.flatMap fun path => stations [] (namesOf path)⟩

def lookUp? (f : Folder) (names : List Text) : Option Place :=
  match f.files.find? fun file => file.1 == names with
  | some file => some (.file file.2)
  | none => if f.folders.contains names then some (.inside names) else none

def step (f : Folder) (path name : Text) : Place → Except Fault Place
  | .file _ => .error .notFolder
  | .above height =>
    if name = [] ∨ name = ['.'] then .ok (.above height)
    else if name = ['.', '.'] then .ok (.above (height + 1))
    else if longestName < name.byteLength then .error .nameTooLong
    else .error (.missing path)
  | .inside names =>
    if name = [] ∨ name = ['.'] then .ok (.inside names)
    else if name = ['.', '.'] then .ok (if names = [] then .above 1 else .inside names.dropLast)
    else if longestName < name.byteLength then .error .nameTooLong
    else (f.lookUp? (names ++ [name])).elim (.error (.missing path)) .ok

def walk (f : Folder) (path : Text) : List Text → Place → Except Fault Place
  | [], place => .ok place
  | name :: rest, place => do f.walk path rest (← f.step path name place)

def find (f : Folder) (path : Text) : Except Fault Place :=
  if path = [] then .error (.missing path)
  else if longestPath < path.byteLength then .error .nameTooLong
  else if path.head? = some '/' then f.walk path (namesOf path) (.above 1)
  else f.walk path (namesOf path) (.inside [])

def read (f : Folder) (path : Text) : Except Fault Bytes := do
  match ← f.find path with
  | .file bytes => pure bytes
  | _ => .error .isFolder

end Folder
end LoxLexer
