import CoverageLift.Yaml.Token

/-!
# Nodes of a YAML document

The tokens of a document form one node: a scalar, a sequence or a mapping. A missing key, value or
item is an empty plain scalar. A sequence that is the value of a mapping need not be indented. A text
holds at most one document. Along a chain of calls fuel is spent at most four times per
token.
-/

namespace CoverageLift.Yaml

/-- A node of a document. -/
inductive Node
  | scalar (text : Text) (plain : Bool)
  | sequence (items : List Node)
  | mapping (pairs : List (Node × Node))
  deriving Inhabited

namespace Node

/-- The node that stands for nothing. -/
def empty : Node := scalar [] true

/-- Whether the next token is one of those given. -/
def nextIn (stops : List Token) : List Token → Bool
  | [] => true
  | token :: _ => stops.contains token

/-- A node and the tokens after it. -/
abbrev Parsed := Except Error (Node × List Token)

/-- Refuses the next token: it is out of place, or it is an error itself. -/
def refuse {α : Type} : List Token → Except Error α
  | .failure error :: _ => .error error
  | _ => .error .malformed

mutual

/-- A node; `block` allows block collections and `unindented` sequences without indentation. -/
def parse (block unindented : Bool) : (fuel : Nat) → List Token → Parsed
  | 0, _ => .error .malformed
  | fuel + 1, tokens =>
    match tokens with
    | .scalar text plain :: rest => .ok (scalar text plain, rest)
    | .flowSequenceStart :: rest => flowItems true fuel [] rest
    | .flowMappingStart :: rest => flowPairs true fuel [] rest
    | .blockEntry :: _ => if unindented then blockItems false fuel [] tokens else refuse tokens
    | .blockSequenceStart :: rest => if block then blockItems true fuel [] rest else refuse tokens
    | .blockMappingStart :: rest => if block then blockPairs fuel [] rest else refuse tokens
    | _ => refuse tokens

/-- A node unless one of the tokens follows, which means that there is none. -/
def parseUnless (stops : List Token) (block unindented : Bool) :
    (fuel : Nat) → List Token → Parsed
  | 0, _ => .error .malformed
  | fuel + 1, tokens =>
    if nextIn stops tokens then .ok (empty, tokens) else parse block unindented fuel tokens

/-- The items of a block sequence; one that is `closed` ends with a token of its own. -/
def blockItems (closed : Bool) : (fuel : Nat) → (read : List Node) → List Token → Parsed
  | 0, _, _ => .error .malformed
  | fuel + 1, read, tokens =>
    match tokens with
    | .blockEntry :: rest =>
      let stops := if closed then [.blockEntry, .blockEnd]
        else [.blockEntry, .key, .value, .blockEnd]
      match parseUnless stops true false fuel rest with
      | .error error => .error error
      | .ok (item, rest) => blockItems closed fuel (item :: read) rest
    | _ =>
      if closed then
        match tokens with
        | .blockEnd :: rest => .ok (sequence read.reverse, rest)
        | _ => refuse tokens
      else .ok (sequence read.reverse, tokens)

/-- The pairs of a block mapping. -/
def blockPairs : (fuel : Nat) → (read : List (Node × Node)) → List Token → Parsed
  | 0, _, _ => .error .malformed
  | fuel + 1, read, tokens =>
    match tokens with
    | .key :: rest =>
      match parseUnless [.key, .value, .blockEnd] true true fuel rest with
      | .error error => .error error
      | .ok (key, rest) =>
        match valueUnless [.key, .value, .blockEnd] true fuel rest with
        | .error error => .error error
        | .ok (value, rest) => blockPairs fuel ((key, value) :: read) rest
    | .blockEnd :: rest => .ok (mapping read.reverse, rest)
    | _ => refuse tokens

/-- The value of a pair: the node after a colon, and an empty one without a colon. -/
def valueUnless (stops : List Token) (block : Bool) : (fuel : Nat) → List Token → Parsed
  | 0, _ => .error .malformed
  | fuel + 1, tokens =>
    match tokens with
    | .value :: rest => parseUnless stops block block fuel rest
    | _ => .ok (empty, tokens)

/-- The items of a sequence between brackets. A pair without brackets is a mapping of its own. -/
def flowItems (first : Bool) : (fuel : Nat) → (read : List Node) → List Token → Parsed
  | 0, _, _ => .error .malformed
  | fuel + 1, read, tokens =>
    match first, tokens with
    | _, .flowSequenceEnd :: rest => .ok (sequence read.reverse, rest)
    | false, .flowEntry :: rest => flowItem fuel read rest
    | false, _ => refuse tokens
    | true, _ => flowItem fuel read tokens

/-- An item of a sequence between brackets and the items after it. -/
def flowItem : (fuel : Nat) → (read : List Node) → List Token → Parsed
  | 0, _, _ => .error .malformed
  | fuel + 1, read, tokens =>
    match tokens with
    | .flowSequenceEnd :: rest => .ok (sequence read.reverse, rest)
    | .key :: rest =>
      match parseUnless [.value, .flowEntry, .flowSequenceEnd] false false fuel rest with
      | .error error => .error error
      | .ok (key, rest) =>
        match valueUnless [.flowEntry, .flowSequenceEnd] false fuel rest with
        | .error error => .error error
        | .ok (value, rest) => flowItems false fuel (mapping [(key, value)] :: read) rest
    | _ =>
      match parse false false fuel tokens with
      | .error error => .error error
      | .ok (item, rest) => flowItems false fuel (item :: read) rest

/-- The pairs of a mapping between brackets. -/
def flowPairs (first : Bool) : (fuel : Nat) → (read : List (Node × Node)) → List Token → Parsed
  | 0, _, _ => .error .malformed
  | fuel + 1, read, tokens =>
    match first, tokens with
    | _, .flowMappingEnd :: rest => .ok (mapping read.reverse, rest)
    | false, .flowEntry :: rest => flowPair fuel read rest
    | false, _ => refuse tokens
    | true, _ => flowPair fuel read tokens

/-- A pair of a mapping between brackets and the pairs after it. A node alone is a key. -/
def flowPair : (fuel : Nat) → (read : List (Node × Node)) → List Token → Parsed
  | 0, _, _ => .error .malformed
  | fuel + 1, read, tokens =>
    match tokens with
    | .flowMappingEnd :: rest => .ok (mapping read.reverse, rest)
    | .key :: rest =>
      match parseUnless [.value, .flowEntry, .flowMappingEnd] false false fuel rest with
      | .error error => .error error
      | .ok (key, rest) =>
        match valueUnless [.flowEntry, .flowMappingEnd] false fuel rest with
        | .error error => .error error
        | .ok (value, rest) => flowPairs false fuel ((key, value) :: read) rest
    | _ =>
      match parse false false fuel tokens with
      | .error error => .error error
      | .ok (key, rest) => flowPairs false fuel ((key, empty) :: read) rest

end

/-- Skips directives; at most one of them names a version, which must be a version 1. -/
def skipDirectives (seen : Bool) : List Token → Except Error (List Token)
  | .directive none :: rest => skipDirectives seen rest
  | .directive (some (major, _)) :: rest =>
    if seen || major ≠ 1 then .error .malformed else skipDirectives true rest
  | tokens => .ok tokens

/-- Whether the document after its start has no content. -/
def lacksContent : List Token → Bool
  | [] => true
  | .directive _ :: _ => true
  | .documentStart :: _ => true
  | .documentEnd :: _ => true
  | _ => false

/-- The content of a document after its start, and the tokens after it. -/
def content (tokens : List Token) : Parsed :=
  if lacksContent tokens then .ok (empty, tokens)
  else parse true false (4 * tokens.length + 4) tokens

/-- The first document. A directive or a start announces it; otherwise it is all content. -/
def firstDocument (tokens : List Token) : Parsed := do
  let announced := match tokens with
    | .directive _ :: _ => true
    | .documentStart :: _ => true
    | _ => false
  if announced then
    match ← skipDirectives false tokens with
    | .documentStart :: rest => content rest
    | rest => refuse rest
  else parse true false (4 * tokens.length + 4) tokens

/-- Nothing comes after the first document but its ends. -/
def checkEnd (tokens : List Token) : Except Error Unit := do
  let rest := tokens.dropWhile (· = .documentEnd)
  if !rest.isEmpty then refuse (← skipDirectives false rest)

/-- The node of the only document of a text, if there is one. -/
def ofTokens (tokens : List Token) : Except Error (Option Node) :=
  if tokens.isEmpty then .ok none
  else do
    let (node, rest) ← firstDocument tokens
    checkEnd rest
    return some node

/-- The node of a text. -/
def ofExcerpt (t : Excerpt) : Except Error (Option Node) := ofTokens (tokens t)

end Node

end CoverageLift.Yaml
