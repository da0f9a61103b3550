import Shorthand.Delimiter
import Shorthand.Text.Integer

/-! # Faults of abbreviations

Why an abbreviation is refused. Each cause carries what its message tells; `AbbreviationFault.message` writes
the message, `AbbreviationFault.position?` gives the place, and `AbbreviationFault.kind` sorts the causes into
the five kinds that a caller distinguishes. -/

namespace Shorthand

/-- The number of scan steps at which the reading of one level is given up. -/
def stepLimit : Nat := 1000

/-- The number of groups that may be nested in each other. -/
def groupLimit : Nat := 100

/-- The number of levels of a tree that can still be optimized. -/
def treeLimit : Nat := 980

/-- A cause for which an abbreviation is refused. -/
inductive AbbreviationFault where
  /-- The span that opens at the position has no end. -/
  | unclosed (d : Delimiter) (position : Nat)
  /-- The attribute set at the position of a token has no end. -/
  | unclosedSet (position : Nat)
  /-- The attribute set at the position of a token has no attribute. -/
  | emptySet (position : Nat)
  /-- The value of the named attribute, at the position of its set, cannot be read. -/
  | badValue (name : Text) (position : Nat)
  /-- The text before the markers of a token is no element name. -/
  | badName (name : Text)
  /-- The character at the position begins neither an operator nor a group nor a token. -/
  | strayChar (c : Char) (position : Nat)
  /-- A level takes too many scan steps; the position is that of the step that was not done. -/
  | tooManySteps (position : Nat)
  /-- Too many groups are nested in each other. -/
  | groupsTooDeep
  /-- The tree has too many levels. -/
  | treeTooDeep
  deriving DecidableEq, Repr

/-- The kinds of causes that a caller distinguishes. -/
inductive FaultKind where
  /-- A group or a text without its end. -/
  | unmatchedDelimiter
  /-- An attribute set without its end, or an empty one. -/
  | invalidAttributeSet
  /-- An attribute value that cannot be read. -/
  | invalidAttributeValue
  /-- A name or a character that cannot stand where it stands. -/
  | invalidName
  /-- A limit that was reached. -/
  | runawayInput
  deriving DecidableEq, Repr

namespace AbbreviationFault

/-- The kind of a cause. -/
def kind : AbbreviationFault → FaultKind
  | unclosed .square _ => .invalidAttributeSet
  | unclosed _ _ => .unmatchedDelimiter
  | unclosedSet _ => .invalidAttributeSet
  | emptySet _ => .invalidAttributeSet
  | badValue _ _ => .invalidAttributeValue
  | badName _ => .invalidName
  | strayChar _ _ => .invalidName
  | tooManySteps _ => .runawayInput
  | groupsTooDeep => .runawayInput
  | treeTooDeep => .runawayInput

/-- The position that a cause names, if it names one. -/
def position? : AbbreviationFault → Option Nat
  | unclosed _ position => some position
  | unclosedSet position => some position
  | emptySet position => some position
  | badValue _ position => some position
  | badName _ => none
  | strayChar _ position => some position
  | tooManySteps position => some position
  | groupsTooDeep => none
  | treeTooDeep => none

/-- The message of a cause. -/
def message : AbbreviationFault → Text
  | unclosed d position =>
    "Invalid abbreviation: no matching \"".toList ++ [d.closer] ++
      "\" found for character at ".toList ++ Text.ofNat position
  | unclosedSet position =>
    "Invalid attribute set definition at position ".toList ++ Text.ofNat position
  | emptySet position => "Empty attribute set at position ".toList ++ Text.ofNat position
  | badValue name position =>
    "Invalid attribute value for ".toList ++ name.quoted ++ " at position ".toList ++
      Text.ofNat position
  | badName name => "Invalid abbreviation name: ".toList ++ name.quoted
  | strayChar c position =>
    "Invalid abbreviation: unexpected character ".toList ++ Text.quoted [c] ++ " at ".toList ++
      Text.ofNat position
  | tooManySteps _ =>
    "Endless loop detected: reached the limit of ".toList ++ Text.ofNat stepLimit ++
      " scan steps".toList
  | groupsTooDeep =>
    "Groups nested deeper than ".toList ++ Text.ofNat groupLimit ++ " levels".toList
  | treeTooDeep => "Abbreviation tree nests too deeply to optimize".toList

end AbbreviationFault

/-- Why the reading of an abbreviation ends without a tree: the abbreviation is refused, or a multiplier in
it is no acceptable integer. -/
inductive Fault where
  /-- The abbreviation is refused. -/
  | abbreviation (cause : AbbreviationFault)
  /-- A number in it is refused. -/
  | integer (cause : IntegerFault)
  deriving DecidableEq, Repr

/-- The message of a fault. -/
def Fault.message : Fault → Text
  | abbreviation cause => cause.message
  | integer cause => cause.message

instance : Coe AbbreviationFault Fault := ⟨.abbreviation⟩

instance : Coe IntegerFault Fault := ⟨.integer⟩

end Shorthand
