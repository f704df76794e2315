import ShaderWeave.Declaration
import ShaderWeave.Path

/-!
# Constructs

A file is a sequence of constructs. Most tokens are constructs of their own and are copied to the woven text. Five words
start a longer one:

    #include "path"
    #requires_implementation
    #vertex_shader "path"
    struct NAME { TYPE FIELD; ... };
    uniform TYPE NAME = VALUE;

Reading a construct touches nothing but the tokens. What it asks for beyond that is returned as an `Action`.
-/

namespace ShaderWeave

/-- What a token starts. -/
inductive Role where
  /-- A request to expand a file in this place. -/
  | inclusion
  /-- The mark of a template file, which can only be included. -/
  | templateMark
  /-- A request to link a vertex shader. -/
  | vertexLink
  /-- The definition of a struct type. -/
  | structDefinition
  /-- The declaration of a uniform. -/
  | uniform
  /-- Nothing but the token itself. -/
  | plain
  deriving DecidableEq

/-- What a token starts. -/
def Token.role (t : Token) : Role :=
  if t.kind = .directive then
    if t.text = "#include" then .inclusion
    else if t.text = "#requires_implementation" then .templateMark
    else if t.text = "#vertex_shader" then .vertexLink
    else .plain
  else if t.kind = .keyword then
    if t.text = "struct" then .structDefinition
    else if t.text = "uniform" then .uniform
    else .plain
  else .plain

/-- How a file asks for another one. -/
inductive Manner where
  /-- The other file is expanded in the place of the request. -/
  | included
  /-- The other file becomes the vertex shader of the program. -/
  | linked
  deriving DecidableEq

/-- What a construct asks for. -/
inductive Action where
  /-- Nothing. -/
  | nothing
  /-- To open the file behind a path as it is written on a line. -/
  | request (manner : Manner) (written : String) (line : Nat)
  /-- To add a uniform. -/
  | declare (v : Variable)
  /-- To add a struct type. -/
  | define (name : String) (fields : List Variable)
  deriving DecidableEq

namespace Reader

/-- Reads the path of a request. Where there is none, the token in its place is copied. -/
def request (manner : Manner) (expected : String) : Reader Action := do
  if ← expect [.string] expected then
    let t ← current
    return .request manner t.text t.line
  copy
  return .nothing

/-- Checks the place of the mark of a template file. -/
def templateMark (standsAlone : Bool) : Reader Action := do
  if (← here).index ≠ 0 then report .lateTemplateMark
  if standsAlone then report .unfilledTemplate
  return .nothing

/-- Reads the definition of a struct type. Fields whose declarations are abandoned are left out. -/
def structDefinition (types : Structs) : Reader Action := do
  copy
  demand .keyword "a struct name"
  let name := (← current).text
  copy
  demand .openCurly "an opening curly brace"
  copy
  let fields ← collectUntil .closeCurly (declaration types) (steps_declaration_pos types)
  demand .closeCurly "a closing curly brace"
  copy
  demand .semicolon "a semicolon"
  copy
  newline
  return .define name fields

/-- Reads the declaration of a uniform. -/
def uniform (types : Structs) : Reader Action := do
  copy
  return .declare (← declaration types)

/-- Reads the construct under the cursor, in the file with the given path. -/
def construct (path : Path) (standsAlone : Bool) (types : Structs) : Reader Action := do
  match (← current).role with
  | .inclusion => request .included "a file path after #include"
  | .templateMark => templateMark standsAlone
  | .vertexLink =>
    if !path.isFragment then report .linkOutsideFragment
    request .linked "a file path after #vertex_shader"
  | .structDefinition => structDefinition types
  | .uniform => uniform types
  | .plain =>
    copy
    return .nothing

end Reader

end ShaderWeave
