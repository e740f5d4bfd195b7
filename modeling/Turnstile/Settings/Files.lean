import Turnstile.Settings.Path
import Turnstile.Table
import Turnstile.Toml.Reader

namespace Turnstile.Settings

inductive Content where
  | text (s : String)
  | bytes (raw : ByteArray)

def Content.text? : Content → Option String
  | text s => some s
  | bytes raw => String.fromUTF8? raw

/-- The names that lead to a file or a directory from the top. -/
abbrev Location := List String

/-- The files, and the directories that were made beside those that lead to the current one. -/
structure Files where
  current : Location := ["work"]
  files : Table Location Content := {}
  directories : List Location := []

def pathParts (path : String) : List String := (path.toList.splitOn '/').map String.ofList

def components (path : String) : List String := (pathParts path).filter fun c => c ≠ "" && c ≠ "."

def isAbsolute (path : String) : Bool := path.toList.head? = some '/'

/-- A path that ends in a slash or a single point can only be a directory. -/
def endsInDirectory (path : String) : Bool :=
  match (pathParts path).getLast? with
  | some c => c = "" || c = "."
  | none => true

def joined (cs : List String) : String := "/".intercalate cs

namespace Files

def start (f : Files) (path : String) : Location := if isAbsolute path then [] else f.current

def follow (l : Location) (c : String) : Location := if c = ".." then l.dropLast else l ++ [c]

def isDirectory (f : Files) (l : Location) : Bool := l.isPrefixOf f.current || l ∈ f.directories

def step (f : Files) (here : Option Location) (c : String) : Option Location :=
  here.bind fun l => if f.isDirectory l then some (follow l c) else none

/-- Where the parts of a path lead; each but the last has to be a directory. -/
def resolve (f : Files) (start : Location) (cs : List String) : Option Location :=
  cs.foldl f.step (some start)

def read? (f : Files) (path : String) : Option Content :=
  if endsInDirectory path then none
  else (f.resolve (f.start path) (components path)).bind f.files.get?

def write (f : Files) (path : String) (c : Content) : Files :=
  let cs := components path
  let after (n : Nat) : Location := (cs.take n).foldl follow (f.start path)
  { f with
    files := f.files.put (after cs.length) c
    directories := f.directories ++ (List.range cs.length).map after }

def remove (f : Files) (path : String) : Files × Bool :=
  match f.read? path, f.resolve (f.start path) (components path) with
  | some _, some l => ({ f with files := ⟨f.files.entries.filter (·.1 ≠ l)⟩ }, true)
  | _, _ => (f, false)

end Files

/-- What follows the last point of a file name, unless that point is its first character. -/
def extension? (name : String) : Option String :=
  match name.toList.splitOn '.' with
  | [] | [_] | [[], _] => none
  | parts => parts.getLast?.map String.ofList

/-- The parts of a path as seen from a directory, by name only. -/
def partsFrom : Location → List String → List String
  | d :: ds, c :: cs => if d = c then partsFrom ds cs else (d :: ds).map (fun _ => "..") ++ c :: cs
  | ds, cs => ds.map (fun _ => "..") ++ cs

structure SettingsFile where
  path : String
  content : Content

/-- A name that is not that of a file has the extension added to it. -/
def Files.locate (f : Files) (name : String) : Except SettingsError SettingsFile :=
  let cs := f.start name ++ components name
  match f.read? name with
  | some c =>
    if (cs.getLast?.bind extension?) = some "toml" then .ok ⟨joined (partsFrom f.current cs), c⟩
    else .error (.unknownFormat (if isAbsolute name then name else "<CWD>/" ++ name))
  | none =>
    match cs.getLast? with
    | none | some ".." => .error (.fileNotFound name)
    | some last =>
      let cs := cs.dropLast ++ [last ++ ".toml"]
      match (f.resolve [] cs).bind f.files.get? with
      | some c => .ok ⟨joined (partsFrom f.current cs), c⟩
      | none => .error (.fileNotFound name)

mutual

def ofNode (origin : String) : Toml.Node → Value
  | .str s => .scalar (some origin) (.str s)
  | .int i => .scalar (some origin) (.int i)
  | .float x => .scalar (some origin) (.float x)
  | .bool b => .scalar (some origin) (.bool b)
  | .date text => .scalar (some origin) (.str text)
  | .array items => .array (some origin) (ofNodes origin items)
  | .table _ es => .table (some origin) (ofEntries origin es)
  | .tables rows => .array (some origin) (ofNodes origin rows)

def ofNodes (origin : String) : List Toml.Node → List Value
  | [] => []
  | n :: ns => ofNode origin n :: ofNodes origin ns

def ofEntries (origin : String) : List (String × Toml.Node) → List (String × Value)
  | [] => []
  | (k, n) :: es => (k, ofNode origin n) :: ofEntries origin es

end

def SettingsFile.source (f : SettingsFile) : Except SettingsError Source :=
  match f.content.text? with
  | none => .error .notUtf8
  | some text =>
    match Toml.parse? text with
    | none => .error (.malformed f.path)
    | some es => .ok (ofEntries f.path es)

def Files.source (f : Files) (name : String) : Except SettingsError Source := do
  let found ← f.locate name
  found.source

end Turnstile.Settings
