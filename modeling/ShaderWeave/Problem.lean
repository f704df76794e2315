import ShaderWeave.Text.Character

/-!
# Problems and diagnostics

A `Problem` is what can be wrong with a program, and `Problem.message` its wording. A `Diagnostic` is a problem in its
place. Only a collision of uniforms is a warning: it does not make a program invalid.
-/

namespace ShaderWeave

/-- What can be wrong with a program. -/
inductive Problem where
  /-- A file that cannot be found or loaded, and why. -/
  | notFound (file cause : String)
  /-- A path without a file name and an extension, from which the stage of a file is read. -/
  | noExtension (path : String)
  /-- A file that is included or linked while it is being expanded, and the file that asks for it. -/
  | cycle (file source : String)
  /-- A string that is not closed on its line. -/
  | unclosedString
  /-- A token where another one is needed. -/
  | unexpected (expected found : String)
  /-- The end of the file where a token is needed. -/
  | unexpectedEnd (expected : String)
  /-- A word in the place of a type that names none. -/
  | unknownType (word : String)
  /-- A word in the place of a type that is almost the name of a vector type. -/
  | badVectorType (word : String)
  /-- A truth value that is neither of the two. -/
  | badTruthValue (word : String)
  /-- A number outside the range or the form of its type. -/
  | badNumber (literal : String)
  /-- A mark of a template file that is not the first token. -/
  | lateTemplateMark
  /-- A template file in the place of a file that implements what it needs. -/
  | unfilledTemplate
  /-- A link to a vertex shader from a file that is no fragment shader. -/
  | linkOutsideFragment
  /-- A link to a file that is no vertex shader. -/
  | linkToOther (path : String)
  /-- A second vertex shader. -/
  | secondVertexShader
  /-- Two leaves of one name. -/
  | repeatedLeaf (name : String)
  deriving DecidableEq

namespace Problem

/-- The wording of a problem. -/
def message : Problem → String
  | .notFound file cause => "file " ++ Text.quote file ++ " was not found: " ++ cause
  | .noExtension path => "path " ++ Text.quote path ++ " has no file name or extension"
  | .cycle file source =>
    "file " ++ Text.quote file ++ " is recursively included from " ++ Text.quote source
  | .unclosedString => "string does not have a matching end quote"
  | .unexpected expected found => "expected " ++ expected ++ ", found " ++ Text.quote found
  | .unexpectedEnd expected => "unexpected end of file, expected " ++ expected
  | .unknownType word => "type " ++ Text.quote word ++ " not recognized"
  | .badVectorType word =>
    "vector type " ++ Text.quote word ++ " should be of the format TvecN where T is the element type and " ++
      "N is the number of components"
  | .badTruthValue word => "boolean values should be true or false, found " ++ Text.quote word
  | .badNumber literal => Text.quote literal ++ " is not a valid number"
  | .lateTemplateMark => "#requires_implementation should be the first token of the file"
  | .unfilledTemplate =>
    "this is not an implementation file; use a file which implements the required functions"
  | .linkOutsideFragment => "#vertex_shader should only be present in a fragment shader"
  | .linkToOther path => "#vertex_shader path " ++ Text.quote path ++ " does not point to a vertex shader"
  | .secondVertexShader => "multiple vertex shaders are linked by this file"
  | .repeatedLeaf name => "uniform " ++ Text.quote name ++ " is present twice"

/-- A problem that is reported and leaves the program valid. -/
def isWarning : Problem → Bool
  | .repeatedLeaf _ => true
  | _ => false

end Problem

/-- A problem in its place. -/
structure Diagnostic where
  /-- The file it was found in. -/
  file : String
  /-- The line in the file, counted from one, or zero for the file as a whole. -/
  line : Nat
  /-- The problem. -/
  problem : Problem
  deriving DecidableEq

namespace Diagnostic

/-- A diagnostic that leaves the program valid. -/
def isWarning (d : Diagnostic) : Bool :=
  d.problem.isWarning

/-- A file and a line in it, or the file alone. -/
def place (d : Diagnostic) : String :=
  if d.line = 0 then d.file else d.file ++ "(" ++ toString d.line ++ ")"

/-- A diagnostic on one line: its place, how bad it is, and the wording. -/
def render (d : Diagnostic) : String :=
  d.place ++ (if d.isWarning then ": warning: " else ": error: ") ++ d.problem.message

end Diagnostic

end ShaderWeave
