import Reconcile.Text.Utf8

namespace Reconcile.Yaml

open Text

/-- The octets of a tag. Percent signs can write out any that are put together like UTF-8, so they
need not be those of characters. -/
abbrev Tag := List UInt8

namespace Tag

def ofOctets (octets : List UInt8) : Tag := octets.takeWhile (· != 0)

def ofText (text : List Char) : Tag := Utf8.encode text

def isLocal (tag : Tag) : Bool := (ofText ['!']).isPrefixOf tag

/-- How a local tag is written out, with its exclamation mark once; `none` if it is no text. -/
def written? (tag : Tag) : Option String :=
  match Utf8.decode tag with
  | .ok ['!'] => some "!!"
  | .ok ('!' :: '!' :: c :: rest) | .ok ('!' :: c :: rest) => some (.ofList ('!' :: c :: rest))
  | _ => none

def standard : List Char := "tag:yaml.org,2002:".toList

def kind? (tag : Tag) : Option String :=
  match Utf8.decode tag with
  | .ok text =>
    if standard.isPrefixOf text then some (.ofList (text.drop standard.length)) else none
  | .error _ => none

end Tag

structure TagName where
  handle : List Char
  suffix : Tag
deriving DecidableEq, Repr

abbrev Handles := List (List Char × Tag)

def Handles.default : Handles := [(['!'], .ofText ['!']), (['!', '!'], .ofText Tag.standard)]

def Handles.expand (handles : Handles) (name : TagName) : Option Tag :=
  if name.handle.isEmpty then some name.suffix
  else (handles.lookup name.handle).map (· ++ name.suffix)

end Reconcile.Yaml
