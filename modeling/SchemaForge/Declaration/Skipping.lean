import SchemaForge.Source.Token

/-! Passing over tokens whose meaning is not kept. Each function gives the tokens after the part that
is passed over. The three of them watch different brackets, so they need not agree on where a part ends
when its brackets do not match. -/
namespace SchemaForge.Grammar

/-- The tokens from the end of an object member on, which is the first semicolon, comma or closing brace
outside all brackets opened since. A closing bracket of any kind closes the last one opened. -/
def skipMember (depth : Nat) : List Token → List Token
  | [] => []
  | token :: rest =>
      match token.kind with
      | .mark .openBrace => skipMember (depth + 1) rest
      | .mark .openParen => skipMember (depth + 1) rest
      | .mark .openBracket => skipMember (depth + 1) rest
      | .mark .closeParen => skipMember (depth - 1) rest
      | .mark .closeBracket => skipMember (depth - 1) rest
      | .mark .closeBrace => if depth = 0 then token :: rest else skipMember (depth - 1) rest
      | .mark .semicolon => if depth = 0 then token :: rest else skipMember depth rest
      | .mark .comma => if depth = 0 then token :: rest else skipMember depth rest
      | _ => skipMember depth rest

/-- The tokens after a group that starts with the opening mark. Other marks are not looked at. A group
that is not closed extends to the last token. -/
def skipGroup (opening closing : Mark) (depth : Nat) : List Token → List Token
  | [] => []
  | token :: rest =>
      if token.kind = .mark opening then skipGroup opening closing (depth + 1) rest
      else if token.kind = .mark closing then
        if depth ≤ 1 then rest else skipGroup opening closing (depth - 1) rest
      else skipGroup opening closing depth rest

/-- The tokens after type arguments in angle brackets. A semicolon or a closing brace outside nested
arguments ends them and is not passed over. -/
def skipArguments (depth : Nat) : List Token → List Token
  | [] => []
  | token :: rest =>
      match token.kind with
      | .mark .less => skipArguments (depth + 1) rest
      | .mark .greater => if depth ≤ 1 then rest else skipArguments (depth - 1) rest
      | .mark .semicolon => if depth ≤ 1 then token :: rest else skipArguments depth rest
      | .mark .closeBrace => if depth ≤ 1 then token :: rest else skipArguments depth rest
      | _ => skipArguments depth rest

/-- The parenthesis at the start is closed and followed by an arrow. Only parentheses are counted. -/
def startsFunction (depth : Nat) : List Token → Bool
  | [] => false
  | token :: rest =>
      match token.kind with
      | .mark .openParen => startsFunction (depth + 1) rest
      | .mark .closeParen =>
          if depth ≤ 1 then
            match rest with
            | [] => false
            | next :: _ => next.kind = .mark .arrow
          else startsFunction (depth - 1) rest
      | _ => startsFunction depth rest

end SchemaForge.Grammar
