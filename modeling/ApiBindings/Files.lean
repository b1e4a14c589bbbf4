import ApiBindings.Table
import ApiBindings.Text.Split

/-!
# Files

Files stand in folders, one inside the other up to the root of all files. A written path is walked
name by name, from the root if it starts with a slash and else from the folder in which the program
runs: a dot and an empty name stay where they are, and two dots go one folder up, which at the root
leads nowhere else. A folder is there if there is a file below it, if the program runs in it or
below it, or if it is known as one without files.
-/

namespace ApiBindings

/-- The names on the way from the root to a place. -/
abbrev Path := List String

namespace Path

def names (s : String) : List String := Text.splitText '/' s

def staysHere (name : String) : Bool := name == "" || name == "."

/-- Whether a written path starts at the root of all files. -/
def isAbsolute (s : String) : Bool := s.toList.head? == some '/'

/-- The place that a name leads to from a folder. -/
def step (folder : Path) (name : String) : Path :=
  if staysHere name then folder
  else if name == ".." then folder.dropLast
  else folder ++ [name]

/-- The slashes at the start of a written path: two stay two, any other number is one. -/
def root (s : String) : String :=
  match s.toList.takeWhile (· == '/') with
  | [] => ""
  | ['/', '/'] => "//"
  | _ => "/"

/-- A written path without the names that stay where they are. -/
def tidy (s : String) : String :=
  let text := root s ++ "/".intercalate ((names s).filter fun name => !staysHere name)
  if text = "" then "." else text

end Path

/-- Where a program runs: its folder, and the folders that are there without a file below them. -/
structure Site where
  folder : Path
  emptyFolders : List Path
  deriving DecidableEq, Repr

namespace Site

/-- The folder from which a written path is walked. -/
def start (site : Site) (s : String) : Path := if Path.isAbsolute s then [] else site.folder

/-- The place that a written path names. -/
def place (site : Site) (s : String) : Path := (Path.names s).foldl Path.step (site.start s)

end Site

/-- Files with their contents. -/
structure Files where
  entries : List (Path × String)
  deriving DecidableEq, Repr

/-- Why a file cannot be written. -/
inductive SaveError where
  | isFolder
  | parentIsFile
  | insideFile
  deriving DecidableEq, Repr

namespace Files

/-- The content of the file at a place. -/
def content? (files : Files) (p : Path) : Option String := files.entries.lookup p

def isFolder (files : Files) (site : Site) (p : Path) : Bool :=
  p.isPrefixOf site.folder || site.emptyFolders.any p.isPrefixOf ||
    files.entries.any fun e => p.isPrefixOf e.1 && p.length < e.1.length

/-- The content of the file that names lead to from a folder. -/
def contentFrom? (files : Files) (site : Site) (folder : Path) : List String → Option String
  | [] => none
  | [name] => files.content? (Path.step folder name)
  | name :: rest =>
    if files.isFolder site (Path.step folder name) then
      files.contentFrom? site (Path.step folder name) rest
    else none

/-- The content of the file at a written path. -/
def read? (files : Files) (site : Site) (s : String) : Option String :=
  files.contentFrom? site (site.start s) (Path.names s)

/-- The place that names lead to from a folder, for a file that is to be written there. The folders
on the way, of which the last ones come first, are made if they are missing. -/
def destinationFrom (files : Files) (site : Site) (onWay : List Path) (folder : Path) :
    List String → Except SaveError Path
  | [] => .error .isFolder
  | [name] =>
    let p := Path.step folder name
    if name == ".." || files.isFolder site p || onWay.contains p then .error .isFolder else .ok p
  | name :: rest =>
    let p := Path.step folder name
    if (files.content? p).isSome then
      .error (if rest.length = 1 then .parentIsFile else .insideFile)
    else files.destinationFrom site (p :: onWay) p rest

/-- The place of a file that is to be written at a written path. -/
def destination (files : Files) (site : Site) (s : String) : Except SaveError Path :=
  files.destinationFrom site [] (site.start s)
    ((Path.names s).filter fun name => !Path.staysHere name)

def put (files : Files) (p : Path) (content : String) : Files :=
  ⟨Table.put p content files.entries⟩

/-- The files after a file is written at a written path. -/
def save (files : Files) (site : Site) (s content : String) : Except SaveError Files :=
  (files.destination site s).map fun p => files.put p content

/-- The files in a folder whose content is not what it was before, by their paths from there. -/
def changes (before after : Files) (folder : Path) : List (String × String) :=
  (after.entries.filter fun e => folder.isPrefixOf e.1 && before.content? e.1 != some e.2).map
    fun e => ("/".intercalate (e.1.drop folder.length), e.2)

/-- Names that stay where they are lead nowhere else. -/
theorem foldl_step_filter (names : List String) (folder : Path) :
    (names.filter fun name => !Path.staysHere name).foldl Path.step folder =
      names.foldl Path.step folder := by
  induction names generalizing folder with
  | nil => rfl
  | cons name rest ih =>
    cases hn : Path.staysHere name with
    | true => simp [hn, ih, Path.step]
    | false => simp [hn, ih]

theorem eq_foldl_of_destinationFrom {files : Files} {site : Site} {names : List String}
    {onWay : List Path} {folder p : Path}
    (h : files.destinationFrom site onWay folder names = .ok p) :
    p = names.foldl Path.step folder := by
  induction names generalizing onWay folder with
  | nil => cases h
  | cons name rest ih =>
    cases rest with
    | nil =>
      simp only [destinationFrom] at h
      split at h
      · cases h
      · exact (Except.ok.inj h).symm
    | cons next rest =>
      simp only [destinationFrom] at h
      split at h
      · cases h
      · exact ih h

theorem eq_place_of_destination {files : Files} {site : Site} {s : String} {p : Path}
    (h : files.destination site s = .ok p) : p = site.place s := by
  rw [eq_foldl_of_destinationFrom h, foldl_step_filter]
  rfl

theorem content?_put_self (files : Files) (p : Path) (content : String) :
    (files.put p content).content? p = some content :=
  Table.lookup_update_self p _ files.entries

theorem content?_put_of_ne {files : Files} {p other : Path} (content : String) (h : other ≠ p) :
    (files.put p content).content? other = files.content? other :=
  Table.lookup_update_of_ne _ files.entries h

end Files

end ApiBindings
