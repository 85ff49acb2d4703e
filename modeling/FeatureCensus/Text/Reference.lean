import FeatureCensus.Text.Hexadecimal

/-!
# References

The grammar of references to resources: an absolute one begins with a scheme, a relative one
with an authority or a path, and both may go on with a query and a fragment.  Each part is
read from the front of a text and leaves the rest.

Main definitions:

- Definition {lit}`Text.isReference`: whether a text is a reference.
-/

namespace FeatureCensus
namespace Text

/-! ## Characters -/

/-- The characters that have no meaning of their own. -/
def isReferenceLetter (c : Char) : Bool :=
  c.isAlphanum || c == '-' || c == '.' || c == '_' || c == '~'

/-- The characters that parts may give a meaning. -/
def isSubDelimiter (c : Char) : Bool :=
  c == '!' || c == '$' || c == '&' || c == '\'' || c == '(' || c == ')' || c == '*' ||
    c == '+' || c == ',' || c == ';' || c == '='

/-- The characters of a scheme besides its first one. -/
def isSchemeChar (c : Char) : Bool :=
  c.isAlphanum || c == '+' || c == '-' || c == '.'

/-- The characters of paths that other parts do not have. -/
def isPathMark (c : Char) : Bool :=
  c == ':' || c == '@' || c == '/'

/-- The characters of queries that other parts do not have. -/
def isQueryMark (c : Char) : Bool :=
  isPathMark c || c == '?'

/-- The characters of fragments that other parts do not have. -/
def isFragmentMark (c : Char) : Bool :=
  isQueryMark c || c == '[' || c == ']'

/-! ## Parts -/

/-- What is left after a part, which may hold the given marks.  A percent sign stands in
front of two hexadecimal digits. -/
def dropPart (mark : Char → Bool) : List Char → List Char
  | [] => []
  | '%' :: high :: low :: rest =>
    if (hexByte? high low).isSome then dropPart mark rest else '%' :: high :: low :: rest
  | c :: rest =>
    if isReferenceLetter c || isSubDelimiter c || mark c then dropPart mark rest else c :: rest

/-- What is left after a path that begins with a slash, or is empty. -/
def dropPath : List Char → List Char
  | '/' :: rest => dropPart isPathMark ('/' :: rest)
  | cs => cs

/-- What is left after the name and the password of a user, if these are told. -/
def dropUser (cs : List Char) : List Char :=
  match dropPart (· == ':') cs with
  | '@' :: rest => rest
  | _ => cs

/-- What is left after a host. -/
def afterHost? : List Char → Option (List Char)
  | '[' :: rest =>
    match rest.dropWhile (· != ']') with
    | _ :: after => some after
    | [] => none
  | cs => some (dropPart (fun _ => false) cs)

/-- The greatest number of a port. -/
def portLimit : Nat := 2147483647

/-- What is left after the number of a port, if there is one. -/
def afterPort? : List Char → Option (List Char)
  | ':' :: rest =>
    let digits := rest.takeWhile Char.isDigit
    let number := digits.foldl (fun n c => n * 10 + (c.toNat - 48)) 0
    if digits.isEmpty || portLimit < number then none else some (rest.dropWhile Char.isDigit)
  | cs => some cs

/-- What is left after an authority and the path that follows it. -/
def afterAuthority? (cs : List Char) : Option (List Char) :=
  ((afterHost? (dropUser cs)).bind afterPort?).map dropPath

/-- What is left after a scheme and its colon. -/
def afterScheme? : List Char → Option (List Char)
  | [] => none
  | c :: rest =>
    match rest.dropWhile isSchemeChar with
    | ':' :: after => if c.isAlpha then some after else none
    | _ => none

/-! ## References -/

/-- Whether just a query and a fragment are left. -/
def isTail (cs : List Char) : Bool :=
  let afterQuery := match cs with
    | '?' :: rest => dropPart isQueryMark rest
    | cs => cs
  match afterQuery with
  | '#' :: rest => (dropPart isFragmentMark rest).isEmpty
  | rest => rest.isEmpty

/-- Whether a text is a reference without its scheme. -/
def isAfterScheme : List Char → Bool
  | '/' :: '/' :: rest => ((afterAuthority? rest).map isTail).getD false
  | cs => isTail (dropPart isPathMark cs)

/-- Whether a text is a relative reference.  Without a slash in front its first step holds no
colon. -/
def isRelative : List Char → Bool
  | '/' :: rest => isAfterScheme ('/' :: rest)
  | cs => isTail (dropPath (dropPart (· == '@') cs))

/-- Whether a text is a reference. -/
def isReference (cs : List Char) : Bool :=
  ((afterScheme? cs).map isAfterScheme).getD false || isRelative cs

end Text
end FeatureCensus
