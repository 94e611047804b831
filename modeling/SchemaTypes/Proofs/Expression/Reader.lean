import SchemaTypes.Proofs.Expression.Basic
import SchemaTypes.Proofs.Expression.Lexer

/-! # Reading type expressions

Tokens are read from left to right. What is open around the place of reading stands on a stack of
frames; within the innermost of them the alternatives that are complete and the operands of the one
that is not are kept apart, as `[]` binds tighter than `&` and `&` tighter than `|`.
-/

namespace SchemaTypes

open Lexer

namespace TypeExpr

/-- What has been read of a union: its alternatives, and the operands of the one at hand. -/
structure Level where
  alternatives : List TypeExpr := []
  operands : List TypeExpr := []

structure Members where
  properties : List (String × Bool × TypeExpr) := []
  index : Option TypeExpr := none

/-- Something that is open, with the level to go back to. -/
inductive Frame where
  | parenthesis (outer : Level)
  | property (outer : Level) (before : Members) (name : String) (missing : Bool)
  | index (outer : Level) (before : Members)

/-- What is expected at the place of reading. -/
inductive Place where
  | operand (level : Level)
  | operator (level : Level) (last : TypeExpr)
  | member (outer : Level) (before : Members)

def Level.alternative (level : Level) (last : TypeExpr) : List TypeExpr :=
  level.alternatives ++ [.intersection (level.operands ++ [last])]

def Level.close (level : Level) (last : TypeExpr) : TypeExpr := .union (level.alternative last)

def Members.add (members : Members) (name : String) (missing : Bool) (type : TypeExpr) : Members :=
  { members with properties := members.properties ++ [(name, missing, type)] }

def keyName? : Token → Option String
  | .word text => some (String.ofList text)
  | .quoted written => (Text.unescape? written).map String.ofList
  | _ => none

def read : List Frame → Place → List Token → Option TypeExpr
  | frames, .operand level, .openParen :: rest =>
    read (.parenthesis level :: frames) (.operand {}) rest
  | frames, .operand level, .openBrace :: rest => read frames (.member level {}) rest
  | frames, .operand level, .word text :: rest =>
    read frames (.operator level (.leaf (String.ofList text))) rest
  | frames, .operand level, .quoted written :: rest =>
    read frames (.operator level (.leaf (String.ofList ('"' :: written ++ ['"'])))) rest
  | frames, .operator level last, .openBracket :: .closeBracket :: rest =>
    read frames (.operator level (.array last)) rest
  | frames, .operator level last, .ampersand :: rest =>
    read frames (.operand { level with operands := level.operands ++ [last] }) rest
  | frames, .operator level last, .bar :: rest =>
    read frames (.operand { alternatives := level.alternative last }) rest
  | .parenthesis outer :: frames, .operator level last, .closeParen :: rest =>
    read frames (.operator outer (level.close last)) rest
  | .property outer before name missing :: frames, .operator level last, .semicolon :: rest =>
    read frames (.member outer (before.add name missing (level.close last))) rest
  | .index outer before :: frames, .operator level last, .semicolon :: rest =>
    read frames (.member outer { before with index := some (level.close last) }) rest
  | [], .operator level last, [] => some (level.close last)
  | frames, .member outer members, .closeBrace :: rest =>
    read frames (.operator outer (.object members.properties members.index)) rest
  | frames, .member outer members,
      .openBracket :: .word _ :: .colon :: .word ['s', 't', 'r', 'i', 'n', 'g'] ::
        .closeBracket :: .colon :: rest =>
    if members.index.isNone then read (.index outer members :: frames) (.operand {}) rest else none
  | frames, .member outer members, key :: .question :: .colon :: rest =>
    (keyName? key).bind fun name =>
      read (.property outer members name true :: frames) (.operand {}) rest
  | frames, .member outer members, key :: .colon :: rest =>
    (keyName? key).bind fun name =>
      read (.property outer members name false :: frames) (.operand {}) rest
  | _, _, _ => none

def read? (text : String) : Option TypeExpr :=
  (tokens? text).bind (read [] (.operand {}))

end TypeExpr

end SchemaTypes
