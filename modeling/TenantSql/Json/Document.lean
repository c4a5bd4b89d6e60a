import TenantSql.Json.Token
/-!
# TenantSql.Json.Document

JSON text read into a document. The words are taken one by one with the open
arrays and objects on a stack, so reading is one pass over the words and nesting
costs nothing but stack.
-/

namespace TenantSql.Json

/-- A member of an object while it is read; a key that encodes no text is none. -/
abbrev Member := Option String × Json

/-- The object of members. -/
def ofMembers (members : List Member) : Json :=
  match members.mapM fun (key, value) => key.map fun key => (key, value) with
  | some members => .object members
  | none => .unpaired

/-- An open array or object with what it holds so far, last first; `member` waits for the value
of a key. -/
inductive Frame where
  | items (before : List Json)
  | members (before : List Member)
  | member (before : List Member) (key : Option String)

/-- What may come next, and the frames around it. -/
inductive Expecting where
  | anyValue (stack : List Frame)
  | itemOrEnd (stack : List Frame)
  | keyOrEnd (stack : List Frame)
  | memberKey (before : List Member) (stack : List Frame)
  | keyColon (before : List Member) (key : Option String) (stack : List Frame)
  | commaOrEnd (frame : Frame) (stack : List Frame)
  | nothing (document : Json)

namespace Expecting

/-- A value is complete: it goes into the innermost frame, or is the document. -/
def complete? (value : Json) : List Frame → Option Expecting
  | [] => some (.nothing value)
  | .items before :: stack => some (.commaOrEnd (.items (value :: before)) stack)
  | .member before key :: stack => some (.commaOrEnd (.members ((key, value) :: before)) stack)
  | .members _ :: _ => none

/-- A word where a value may begin. -/
def beginValue? (token : Token) (stack : List Frame) : Option Expecting :=
  match token with
  | .scalar value => complete? value stack
  | .openArray => some (.itemOrEnd stack)
  | .openObject => some (.keyOrEnd stack)
  | _ => none

/-- A word where a key stands: any string. -/
def takeKey? (token : Token) (before : List Member) (stack : List Frame) : Option Expecting :=
  match token with
  | .scalar (.string key) => some (.keyColon before (some key) stack)
  | .scalar .unpaired => some (.keyColon before none stack)
  | _ => none

/-- One word. -/
def step? : Expecting → Token → Option Expecting
  | .anyValue stack, token => beginValue? token stack
  | .itemOrEnd stack, .closeArray => complete? (.array []) stack
  | .itemOrEnd stack, token => beginValue? token (.items [] :: stack)
  | .keyOrEnd stack, .closeObject => complete? (.object []) stack
  | .keyOrEnd stack, token => takeKey? token [] stack
  | .memberKey before stack, token => takeKey? token before stack
  | .keyColon before key stack, .colon => some (.anyValue (.member before key :: stack))
  | .commaOrEnd (.items before) stack, .comma => some (.anyValue (.items before :: stack))
  | .commaOrEnd (.items before) stack, .closeArray => complete? (.array before.reverse) stack
  | .commaOrEnd (.members before) stack, .comma => some (.memberKey before stack)
  | .commaOrEnd (.members before) stack, .closeObject => complete? (ofMembers before.reverse) stack
  | _, _ => none

/-- Words up to the end of the text. -/
def finish? (state : Expecting) : List Token → Option Json
  | [] =>
    match state with
    | .nothing document => some document
    | _ => none
  | token :: rest =>
    match state.step? token with
    | some next => finish? next rest
    | none => none

end Expecting

/-- The document that a text writes, by the grammar alone. -/
def parse? (text : String) : Option Json :=
  (Token.scan? text.toList).bind (Expecting.anyValue []).finish?

/-- The document that a text writes, every part of which has a meaning. -/
def read? (text : String) : Option Json :=
  (parse? text).filter isReadable

end TenantSql.Json
