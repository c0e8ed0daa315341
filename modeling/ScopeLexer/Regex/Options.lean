/-!
# Options of an expression

Options are switched on and off by `(?i)` and the like, for a group or for the rest of one.
-/

namespace ScopeLexer.Regex

structure Options where
  anyCase : Bool := false
  /-- Blanks and comments are skipped. -/
  extended : Bool := false
  dotAll : Bool := false
  /-- Words, digits and blanks are those of ASCII. -/
  asciiWord : Bool := false
  asciiDigit : Bool := false
  asciiSpace : Bool := false
  /-- So is everything with a bracket name. -/
  asciiNamed : Bool := false
  deriving Repr, DecidableEq, Inhabited

def Options.switch? (options : Options) (letter : Char) (value : Bool) : Option Options :=
  match letter with
  | 'i' => some { options with anyCase := value }
  | 'x' => some { options with extended := value }
  | 'm' => some { options with dotAll := value }
  | 'W' => some { options with asciiWord := value }
  | 'D' => some { options with asciiDigit := value }
  | 'S' => some { options with asciiSpace := value }
  | 'P' => some { options with asciiNamed := value }
  | _ => none

end ScopeLexer.Regex
