import ScopeLint.Json.Basic
import ScopeLint.Text.Quoted

/-!
Why a text is refused as a tree. Either it is not well formed, which carries no further
detail, or it is well formed as far as it was read and the data in it does not fit.
-/

set_option autoImplicit false

namespace ScopeLint.Format

/-- What stands in the text where something else was wanted. -/
inductive Found where
  | integer (value : Int)
  | real (value : Binary64)
  | string (value : String)
  | truth (value : Bool)
  | null
  | sequence
  | map
  /-- The bare name of a variant that carries data. -/
  | bareVariant
  deriving DecidableEq

inductive DataProblem where
  | missingField (key : String)
  | duplicateField (key : String)
  | unknownVariant (tag : String) (known : List String)
  | invalidType (found : Found) (wanted : String)
  | invalidValue (found : Found) (wanted : String)
  | invalidLength (length : Nat) (title : String) (size : Nat)
  deriving DecidableEq

inductive ReadError where
  | malformed
  | data (problem : DataProblem)
  deriving DecidableEq

private def ticked (text : String) : String :=
  "`" ++ text ++ "`"

def Found.text : Found → String
  | integer value => "integer " ++ ticked (toString value)
  | real value => "floating point " ++ ticked (String.ofList (Json.realChars value))
  | string value => "string " ++ Text.quoted value
  | truth value => "boolean " ++ ticked (if value then "true" else "false")
  | null => "null"
  | sequence => "sequence"
  | map => "map"
  | bareVariant => "unit variant"

/-- The tags that would have been accepted; all known choices have at least two. -/
def choiceText : List String → String
  | [first, second] => ticked first ++ " or " ++ ticked second
  | tags => "one of " ++ ", ".intercalate (tags.map ticked)

def DataProblem.message : DataProblem → String
  | missingField key => "missing field " ++ ticked key
  | duplicateField key => "duplicate field " ++ ticked key
  | unknownVariant tag known =>
      "unknown variant " ++ ticked tag ++ ", expected " ++ choiceText known
  | invalidType found wanted => "invalid type: " ++ found.text ++ ", expected " ++ wanted
  | invalidValue found wanted => "invalid value: " ++ found.text ++ ", expected " ++ wanted
  | invalidLength length title size =>
      "invalid length " ++ toString length ++ ", expected " ++ title ++ " with " ++
        toString size ++ (if size = 1 then " element" else " elements")

def ReadError.message : ReadError → String
  | malformed => "JSON syntax error"
  | data problem => problem.message

end ScopeLint.Format
