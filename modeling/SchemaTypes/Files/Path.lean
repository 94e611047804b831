/-! # Paths

A path is read step by step, from the root if it begins with a slash and from the working directory
otherwise. Slashes in a row count as one.
-/

namespace SchemaTypes.Files

inductive Step where
  /-- To the root of all files. -/
  | top
  | here
  | up
  | into (name : String)
deriving DecidableEq

/-- The step that a part of a path between slashes stands for; nothing if it is empty. -/
def Step.ofPart? : List Char → Option Step
  | [] => none
  | ['.'] => some .here
  | ['.', '.'] => some .up
  | part => some (.into (String.ofList part))

/-- A step as far as it does not depend on what has a name. -/
def Step.inPlace : Step → Step
  | .into _ => .here
  | step => step

def steps (path : String) : List Step :=
  let inner := (path.toList.splitOn '/').filterMap Step.ofPart?
  match path.toList with
  | '/' :: _ => .top :: inner
  | _ => inner

def endsInSlash (path : String) : Bool := path.toList.getLast? == some '/'

/-- A path, last character first, without the slashes and the single dots at its end. A dot in front
and the root are kept. -/
def dropEnd : List Char → List Char
  | '/' :: c :: rest => dropEnd (c :: rest)
  | '.' :: '/' :: c :: rest => dropEnd (c :: rest)
  | ['.', '/'] => ['/']
  | cs => cs

/-- The path of the directory in which a path names something; empty if that is the working
directory. -/
def parent (path : String) : String :=
  let end? := dropEnd path.toList.reverse
  let before := end?.dropWhile (· != '/')
  if end? == ['/'] then "" else String.ofList (dropEnd before).reverse

theorem length_dropEnd_le (cs : List Char) : (dropEnd cs).length ≤ cs.length := by
  induction cs using dropEnd.induct with
  | case1 c rest ih =>
    rw [dropEnd, List.length_cons]
    omega
  | case2 c rest ih =>
    rw [dropEnd, List.length_cons, List.length_cons]
    omega
  | case3 => exact Nat.le_succ 1
  | case4 cs => rw [dropEnd] <;> simp_all

theorem eq_nil_of_dropEnd {cs rest : List Char} (slash : dropEnd cs = '/' :: rest) :
    rest = [] := by
  induction cs using dropEnd.induct with
  | case1 c more ih =>
    rw [dropEnd] at slash
    exact ih slash
  | case2 c more ih =>
    rw [dropEnd] at slash
    exact ih slash
  | case3 => exact (List.cons.inj slash).2.symm
  | case4 cs noSlash =>
    rw [dropEnd] at slash
    · cases rest with
      | nil => rfl
      | cons c more => exact absurd slash (noSlash c more)
    all_goals simp_all

/-- Going from directory to directory this way comes to an end. -/
theorem length_parent_lt {path : String} (some : path ≠ "") :
    (parent path).length < path.length := by
  have long : 0 < path.length := by
    rw [← String.length_toList]
    exact List.length_pos_iff.mpr (by simpa using some)
  have whole := length_dropEnd_le path.toList.reverse
  rw [List.length_reverse, String.length_toList] at whole
  rw [parent]
  split
  · exact long
  · next noRoot =>
    rw [String.length_ofList, List.length_reverse]
    cases ends : dropEnd path.toList.reverse with
    | nil => exact long
    | cons c rest =>
      have noSlash : c ≠ '/' := by
        rintro rfl
        rw [ends, eq_nil_of_dropEnd ends] at noRoot
        exact noRoot rfl
      rw [ends, List.length_cons] at whole
      have shorter : ((c :: rest).dropWhile (· != '/')).length ≤ rest.length := by
        rw [List.dropWhile_cons_of_pos (by simpa using noSlash)]
        exact (List.dropWhile_sublist _).length_le
      have kept := length_dropEnd_le ((c :: rest).dropWhile (· != '/'))
      omega

def inDirectory (directory name : String) : String :=
  if directory = "" ∨ endsInSlash directory then directory ++ name else directory ++ "/" ++ name

end SchemaTypes.Files
