import Scribe.Text.Case
import Scribe.Text.Rune

/-!
# About the program
-/

namespace Scribe

namespace About

def name : String := "wz"

def version : String := "0.1.0"

def description : String := "Interpreter for a small dynamically typed scripting language"

def maintainers : List (String × String) := [("ardnew", "andrew@ardnew.com")]

def variableName (suffix : Bytes) : Bytes :=
  let text := utf8 name ++ utf8 "_" ++ suffix
  Bytes.ofChars (text.chars.map upperCase)

/-- The variable that lists directories of scripts. -/
def pathVariable : Bytes := variableName (utf8 "path")

def versionLine : Bytes := utf8 name ++ utf8 " " ++ utf8 version ++ utf8 "\n"

end About

/-- What is to be measured while the program runs. Nothing is measured in this build. -/
structure Profile where
  mode : Bytes := []
  directory : Bytes := []
  quiet : Bool := false

namespace Profile

def modes : List String := []

end Profile

end Scribe
