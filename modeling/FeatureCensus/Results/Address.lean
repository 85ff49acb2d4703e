import FeatureCensus.Text.Hexadecimal
import FeatureCensus.Text.Split

/-!
# Addresses of databases

Where results go: nowhere, or to a database with a name.  A name is the path of a file,
unless it begins with {lit}`file:`; then it is an address with a path and parameters, which
tell how the file is used.

Main definitions:

- Definition {lit}`Address.ofName`: the address that a name stands for.
-/

namespace FeatureCensus

open Text

/-- Where results go. -/
inductive Destination where
  | nowhere
  /-- To a database that is not named. -/
  | unnamed
  | database (name : String)
  deriving DecidableEq, Repr, Inhabited

/-- Why an address cannot be followed. -/
inductive AddressError where
  | foreignHost (host : String)
  /-- There is no such file system. -/
  | unknownSystem (name : String)
  /-- There is no such mode of a sort. -/
  | unknownMode (sort name : String)
  /-- The mode gives more access than an earlier one. -/
  | modeNotAllowed (name : String)
  deriving DecidableEq, Repr, Inhabited

/-- The text of the error. -/
def AddressError.message : AddressError → String
  | foreignHost host => "invalid uri authority: " ++ host
  | unknownSystem name => "no such vfs: " ++ name
  | unknownMode sort name => "no such " ++ sort ++ " mode: " ++ name
  | modeNotAllowed name => "access mode not allowed: " ++ name

namespace Address

/-! ## Modes -/

/-- What may be done with a file. -/
inductive Mode where
  | readOnly
  | readWrite
  /-- The file may also be made. -/
  | create
  /-- There is no file at all. -/
  | memory
  deriving DecidableEq, Repr, Inhabited

/-- The mode of a name. -/
def Mode.ofName? : String → Option Mode
  | "ro" => some readOnly
  | "rw" => some readWrite
  | "rwc" => some create
  | "memory" => some memory
  | _ => none

/-- Whether a mode may be followed by another one, which may not give more access. -/
def Mode.allows : Mode → Mode → Bool
  | memory, _ | create, _ | _, memory => true
  | readOnly, next => next == readOnly
  | readWrite, next => next != create

/-- The mode that parameters leave behind. -/
def modeAfter (mode : Mode) : List (String × String) → Except AddressError Mode
  | [] => .ok mode
  | ("cache", value) :: rest =>
    if value == "shared" || value == "private" then modeAfter mode rest
    else .error (.unknownMode "cache" value)
  | ("mode", value) :: rest =>
    match Mode.ofName? value with
    | none => .error (.unknownMode "access" value)
    | some next =>
      if mode.allows next then modeAfter next rest else .error (.modeNotAllowed value)
  | _ :: rest => modeAfter mode rest

/-! ## Parameters -/

/-- The parameter of a part of an address, which has no value without an equals sign. -/
def parameterOf (part : List Char) : String × String :=
  (percentDecode (part.takeWhile (· != '=')), percentDecode ((part.dropWhile (· != '=')).drop 1))

/-- The parameters of an address, without those that have no name. -/
def parametersOf (cs : List Char) : List (String × String) :=
  ((fields (· == '&') cs).map parameterOf).filter fun parameter => !parameter.1.isEmpty

/-- The names of file systems on the disk. -/
def diskSystems : List String :=
  ["unix", "unix-none", "unix-dotfile", "unix-excl"]

/-- The name of the file system in the memory. -/
def memorySystem : String := "memdb"

/-- The number that the digits of a base at the front of a text stand for. -/
def digitsValue (base : Nat) : Nat → List Char → Nat
  | n, [] => n
  | n, c :: cs =>
    match hexValue? c with
    | some d => if d < base then digitsValue base (n * base + d) cs else n
    | none => n

/-- The number at the front of a text, which is decimal or follows a zero and the letter x;
one with more than 31 bits counts as zero. -/
def leadingNumber (cs : List Char) : Nat :=
  let n := match cs with
    | '0' :: x :: rest => if x == 'x' || x == 'X' then digitsValue 16 0 rest
      else digitsValue 10 0 (x :: rest)
    | cs => digitsValue 10 0 cs
  if n < 2147483648 then n else 0

/-- Whether a value says yes: in words, or by a number whose last eight bits are not zero. -/
def saysYes (value : String) : Bool :=
  match value.toList with
  | [] => false
  | c :: cs =>
    if c.isDigit then leadingNumber (c :: cs) % 256 != 0
    else ["on", "yes", "true"].contains (value.map Char.toLower)

end Address

/-- How a database is opened. -/
structure Address where
  /-- The path of the file; a database without one is temporary. -/
  path : String
  mode : Address.Mode := .create
  /-- The database is held in a file system in the memory. -/
  inMemory : Bool := false
  /-- Nobody changes the file, not even the one who opens it. -/
  immutable : Bool := false
  /-- The file whose permissions a new file gets. -/
  permissionsOf? : Option String := none
  deriving DecidableEq, Repr, Inhabited

namespace Address

/-- Whether the address names a file, be it on the disk or in the memory. -/
def namesFile (a : Address) : Bool :=
  !a.path.isEmpty && a.path != ":memory:" && a.mode != .memory

/-- Whether the database lasts only until it is closed. -/
def isTransient (a : Address) : Bool :=
  !a.namesFile || a.inMemory

/-- Whether the database may be changed, as far as its address tells. -/
def isWritable (a : Address) : Bool :=
  a.mode != .readOnly && !(a.immutable && a.namesFile)

/-! ## Reading -/

/-- The text in front of addresses. -/
def scheme : List Char := ['f', 'i', 'l', 'e', ':']

/-- What follows the host, which must be this one. -/
def dropHost : List Char → Except AddressError (List Char)
  | '/' :: '/' :: rest =>
    let host := String.ofList (rest.takeWhile (· != '/'))
    if host.isEmpty || host == "localhost" then .ok (rest.dropWhile (· != '/'))
    else .error (.foreignHost host)
  | cs => .ok cs

/-- The address with a path and parameters. -/
def ofParts (path : String) (parameters : List (String × String)) :
    Except AddressError Address := do
  let mode ← modeAfter .create parameters
  let system := (parameters.reverse.lookup "vfs").getD "unix"
  if diskSystems.contains system || system == memorySystem then
    return { path, mode
             inMemory := system == memorySystem
             immutable := ((parameters.lookup "immutable").map saysYes).getD false
             permissionsOf? := parameters.lookup "modeof" }
  else throw (.unknownSystem system)

/-- The address that a name stands for. -/
def ofName (name : String) : Except AddressError Address :=
  if scheme.isPrefixOf name.toList then do
    let rest ← dropHost (name.toList.drop scheme.length)
    let body := rest.takeWhile (· != '#')
    ofParts (percentDecode (body.takeWhile (· != '?')))
      (parametersOf ((body.dropWhile (· != '?')).drop 1))
  else .ok { path := name }

end Address
end FeatureCensus
