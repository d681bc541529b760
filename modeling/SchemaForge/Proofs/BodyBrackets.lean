import SchemaForge.Proofs.BracketRules
import SchemaForge.Proofs.FormReading
import SchemaForge.Proofs.LexedText

/-! Brackets in the bodies of declarations. A body is read as the form of a definition prescribes, and the brackets
among the tokens that are read always match. So a body whose brackets do not match is only accepted because of a part
that was passed over, and each such part has a warning of its own. That such bodies are accepted at all is shown by one
in which an object type has no end. -/
namespace SchemaForge

namespace Grammar

open Reader

/-- A declaration that was found: the tokens of its body, which are those behind its equals sign, the tokens from
which on scanning continues, and what was reported while it was read. -/
structure BodyReading where
  declaration : Declaration
  tokens : List Token
  left : List Token
  warnings : List Warning

/-- The tokens behind the equals sign of a declaration, up to those that are left. -/
def bodyTokens (following left : List Token) : List Token :=
  (skipParameters following).tail.take ((skipParameters following).tail.length - left.length)

/-- The declarations that scanning finds, with their bodies. The tokens are gone through as in scanning. -/
def bodiesFrom (final : Position) (taken depth : Nat) : List Token → List BodyReading
  | [] => []
  | token :: rest =>
      match taken with
      | taken + 1 => bodiesFrom final taken depth rest
      | 0 =>
          match if depth = 0 then heading? (token :: rest) else none with
          | none => bodiesFrom final 0 (bracketDepth depth token.kind) rest
          | some (heading, following) =>
              match declaration token.position heading final following with
              | .refused _ _ => []
              | .done found left warnings =>
                  ⟨found, bodyTokens following left, left, warnings⟩ ::
                    bodiesFrom final (rest.length - left.length) 0 rest

/-- The declarations that are found among the tokens of a source, with their bodies. -/
def bodiesIn (tokens : List Token) : List BodyReading :=
  bodiesFrom (finalPosition tokens) 0 0 tokens

/-- One step of scanning that refuses nothing. The first token is passed by, or a declaration starts with it. -/
theorem bodiesFrom_cons_cases {final : Position} {taken depth : Nat} {token : Token} {rest : List Token}
    {declarations : List Declaration}
    (hScan : (scanFrom final taken depth (token :: rest)).outcome = .ok declarations) :
    (∃ taken' depth', (scanFrom final taken' depth' rest).outcome = .ok declarations ∧
      bodiesFrom final taken depth (token :: rest) = bodiesFrom final taken' depth' rest) ∨
    ∃ heading following found left warnings others,
      declaration token.position heading final following = .done found left warnings ∧
      (scanFrom final (rest.length - left.length) 0 rest).outcome = .ok others ∧ declarations = found :: others ∧
      bodiesFrom final taken depth (token :: rest) =
        ⟨found, bodyTokens following left, left, warnings⟩ :: bodiesFrom final (rest.length - left.length) 0 rest := by
  cases taken with
  | succ taken => exact Or.inl ⟨taken, depth, hScan, rfl⟩
  | zero =>
      rw [scanFrom] at hScan
      rw [bodiesFrom]
      cases hStart : (if depth = 0 then heading? (token :: rest) else none) with
      | none =>
          rw [hStart] at hScan
          exact Or.inl ⟨0, bracketDepth depth token.kind, hScan, rfl⟩
      | some start =>
          obtain ⟨heading, following⟩ := start
          rw [hStart] at hScan
          dsimp only at hScan ⊢
          cases hFirst : declaration token.position heading final following with
          | refused error warnings =>
              rw [hFirst] at hScan
              cases hScan
          | done found left warnings =>
              rw [hFirst] at hScan
              dsimp only [Scan.after] at hScan
              cases hOthers : (scanFrom final (rest.length - left.length) 0 rest).outcome with
              | error error =>
                  rw [hOthers] at hScan
                  cases hScan
              | ok others =>
                  rw [hOthers] at hScan
                  cases hScan
                  exact Or.inr ⟨heading, following, found, left, warnings, others, hFirst, hOthers, rfl, rfl⟩

/-- Where nothing is refused, the bodies are those of the declarations that scanning yields. -/
theorem map_declaration_bodiesFrom {final : Position} {taken depth : Nat} {tokens : List Token}
    {declarations : List Declaration}
    (hScan : (scanFrom final taken depth tokens).outcome = .ok declarations) :
    (bodiesFrom final taken depth tokens).map BodyReading.declaration = declarations := by
  induction tokens generalizing taken depth declarations with
  | nil =>
      cases hScan
      rfl
  | cons token rest ih =>
      rcases bodiesFrom_cons_cases hScan with
        ⟨taken', depth', hRest, hBodies⟩ | ⟨_, _, _, _, _, others, -, hOthers, rfl, hBodies⟩
      · rw [hBodies, ih hRest]
      · rw [hBodies, List.map_cons, ih hOthers]

/-- Every body was read by the reader of declarations. -/
theorem exists_declaration_of_mem_bodiesFrom {final : Position} {taken depth : Nat} {tokens : List Token}
    {declarations : List Declaration}
    (hScan : (scanFrom final taken depth tokens).outcome = .ok declarations) {body : BodyReading}
    (hMem : body ∈ bodiesFrom final taken depth tokens) :
    ∃ position heading following,
      declaration position heading final following = .done body.declaration body.left body.warnings ∧
      body.tokens = bodyTokens following body.left := by
  induction tokens generalizing taken depth declarations with
  | nil => cases hMem
  | cons token rest ih =>
      rcases bodiesFrom_cons_cases hScan with
        ⟨taken', depth', hRest, hBodies⟩ | ⟨heading, following, _, _, _, _, hRead, hOthers, -, hBodies⟩
      · rw [hBodies] at hMem
        exact ih hRest hMem
      · rw [hBodies] at hMem
        rcases List.mem_cons.mp hMem with rfl | hLater
        · exact ⟨token.position, heading, following, hRead, rfl⟩
        · exact ih hOthers hLater

/-- The tokens of a body are those that its reading took. -/
theorem bodyTokens_eq {following left body : List Token} (hBody : (skipParameters following).tail = body ++ left) :
    bodyTokens following left = body := by
  rw [bodyTokens, hBody, List.length_append, Nat.add_sub_cancel, List.take_left]

/-- How a body was gone through: some of its tokens were read, and the parts between them were passed over. -/
structure BodyReading.Split (found : BodyReading) (pieces : List Piece) : Prop where
  /-- The body fits the form of a definition up to the tokens from which on scanning continues. -/
  derives : Derives .definition (found.tokens ++ found.left) pieces found.left
  /-- It fits this form in no other way. -/
  unique : ∀ others left, Derives .definition (found.tokens ++ found.left) others left →
    others = pieces ∧ left = found.left
  /-- The pieces are all of the body. -/
  complete : pieces.flatMap Piece.tokens = found.tokens
  /-- The brackets of the tokens that were read are properly nested and matched. -/
  read : bracketsMatch (readTokens pieces) = true
  /-- Every part that was passed over has a warning of its own, of the kind that is meant for it. -/
  reported : ∀ routine, (passedBy routine pieces).length ≤ found.warnings.countP routine.reports
  /-- If the brackets of these parts match, so do those of the body. -/
  matched : (∀ routine, ∀ part ∈ passedBy routine pieces, bracketsMatch part = true) →
    bracketsMatch found.tokens = true

/-- Without a warning nothing is passed over. -/
theorem BodyReading.Split.bracketsMatch_of_silent {found : BodyReading} {pieces : List Piece}
    (hSplit : found.Split pieces) (hSilent : found.warnings = []) : bracketsMatch found.tokens = true := by
  apply hSplit.matched
  intro routine part hPart
  have hNone := hSplit.reported routine
  rw [hSilent, List.countP_nil, Nat.le_zero, List.length_eq_zero_iff] at hNone
  rw [hNone] at hPart
  cases hPart

/-- What a declaration is read from behind its equals sign is gone through as its form prescribes. -/
theorem exists_split_of_declaration {position final : Position} {heading : Heading} {following : List Token}
    {found : BodyReading}
    (hRead : declaration position heading final following = .done found.declaration found.left found.warnings)
    (hTokens : found.tokens = bodyTokens following found.left) : ∃ pieces, found.Split pieces := by
  obtain ⟨pieces, hDerives, hReported⟩ := exists_derives_of_declaration hRead
  have hBody : found.tokens = pieces.flatMap Piece.tokens := hTokens.trans (bodyTokens_eq hDerives.tokens_eq.symm)
  rw [← hDerives.tokens_eq, ← hBody] at hDerives
  have hMatch : bracketsMatch (readTokens pieces) = true := hDerives.closesBrackets_readTokens balanced_definition
  refine ⟨pieces, hDerives, fun _ _ => hDerives.unique, hBody.symm, hMatch, hReported, fun hParts => ?_⟩
  rw [hBody]
  exact closesBrackets_flatMap_tokens hMatch hParts

/-- What matches in the body of every declaration. A body is split as its form prescribes, and in no other way, into
tokens that are read and parts that are passed over. The brackets of the tokens that are read are properly nested and
matched, each part that is passed over has a warning of its own, and if the brackets of these parts match, so do those
of all tokens of the body. In particular the brackets of a body that is read without a warning match. -/
theorem bracketsMatch_of_mem_bodiesIn {source : String} {declarations : List Declaration}
    (hScan : (scan source).outcome = .ok declarations) :
    (bodiesIn (tokenize source)).map BodyReading.declaration = declarations ∧
      ∀ found ∈ bodiesIn (tokenize source), (∃ pieces, found.Split pieces) ∧
        (found.warnings = [] → bracketsMatch found.tokens = true) := by
  refine ⟨map_declaration_bodiesFrom hScan, fun found hMem => ?_⟩
  obtain ⟨position, heading, following, hRead, hTokens⟩ := exists_declaration_of_mem_bodiesFrom hScan hMem
  obtain ⟨pieces, hSplit⟩ := exists_split_of_declaration hRead hTokens
  exact ⟨⟨pieces, hSplit⟩, hSplit.bracketsMatch_of_silent⟩

/-- For each declaration that is found its name, whether the brackets of its body match, and how many warnings its
reading gave. -/
def matchedNames (tokens : List Token) : List (String × Bool × Nat) :=
  (bodiesIn tokens).map fun found =>
    (found.declaration.name, bracketsMatch found.tokens, found.warnings.length)

/-- Declarations all of whose brackets match. Type arguments, the parameters of a function, a method and a nested object
are passed over. -/
def matchedSample : String :=
  "type A = \x7b x: Map<[A]>; run(v: A[]): void; y: (z: A) => [A] \x7d; type B = Array<A, A> | \x7b c: [B] \x7d;"

/-- All four ways to pass over a part occur, and both bodies have warnings and matching brackets. -/
theorem bracketsMatch_of_mem_bodiesIn_sample :
    matchedNames (tokenize matchedSample) = [("A", true, 3), ("B", true, 2)] ∧
      ∃ declarations, (scan matchedSample).outcome = .ok declarations ∧
        (bodiesIn (tokenize matchedSample)).map BodyReading.declaration = declarations ∧
          ∀ found ∈ bodiesIn (tokenize matchedSample), (∃ pieces, found.Split pieces) ∧
            (found.warnings = [] → bracketsMatch found.tokens = true) := by
  have hNames : matchedNames (tokenize matchedSample) = [("A", true, 3), ("B", true, 2)] := by
    rw [show tokenize matchedSample = _ from tokenize_ofList _]
    decide +kernel
  have hDone : (scan matchedSample).outcome.isOk = true := by
    rw [scan, show tokenize matchedSample = _ from tokenize_ofList _]
    decide +kernel
  cases hScan : (scan matchedSample).outcome with
  | error error =>
      rw [hScan] at hDone
      cases hDone
  | ok declarations => exact ⟨hNames, declarations, rfl, bracketsMatch_of_mem_bodiesIn hScan⟩

/-- An object type in a union whose closing brace is missing, and another declaration behind it. -/
def unterminatedSample : String :=
  "export type A = string | \x7b a: string;\nexport type B = \x7b b: number \x7d;"

/-- A body whose brackets do not match is accepted: the object in it extends to the end of the source, and the
declaration behind it is lost without an error. -/
theorem scan_swallows_unterminated_object :
    (scan unterminatedSample).outcome.isOk = true ∧
      matchedNames (tokenize unterminatedSample) = [("A", false, 1)] := by
  rw [scan, show tokenize unterminatedSample = _ from tokenize_ofList _]
  constructor
  · decide +kernel
  · decide +kernel

end Grammar

end SchemaForge
