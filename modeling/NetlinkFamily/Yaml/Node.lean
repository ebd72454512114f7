import NetlinkFamily.Yaml.Token

/-!
Documents as trees of scalars, sequences and mappings. A text holds one document.
-/

namespace NetlinkFamily.Yaml

inductive Node where
  | scalar (plain : Bool) (text : String)
  | sequence (items : List Node)
  | mapping (entries : List (Node × Node))
  deriving Inhabited

namespace Node

/-- What stands for a value that is left out. -/
def empty : Node :=
  scalar true ""

/-- Whether a value is left out in front of a token. -/
private def omittedBefore (stops : List Token) : List Token → Bool
  | [] => true
  | token :: _ => stops.contains token

mutual

/-- A value and the tokens behind it. `inBlock` says whether a block collection may stand here,
`bare` whether the dashes of a sequence may stand here without indentation. -/
private def readValue (inBlock bare : Bool) :
    Nat → List Token → Option (Node × List Token)
  | 0, _ => none
  | fuel + 1, tokens =>
      match tokens with
      | .scalar plain text :: rest => some (scalar plain text, rest)
      | .sequenceStart :: rest => do
          let (items, rest) ← readFlowItems true fuel rest
          return (sequence items, rest)
      | .mappingStart :: rest => do
          let (entries, rest) ← readFlowEntries true fuel rest
          return (mapping entries, rest)
      | .blockSequence :: rest =>
          if inBlock then do
            let (items, rest) ← readBlockItems fuel rest
            return (sequence items, rest)
          else none
      | .blockMapping :: rest =>
          if inBlock then do
            let (entries, rest) ← readBlockEntries fuel rest
            return (mapping entries, rest)
          else none
      | .dash :: _ =>
          if bare then do
            let (items, rest) ← readBareItems fuel tokens
            return (sequence items, rest)
          else none
      | _ => none

/-- A value that may be left out in front of some tokens. -/
private def readOptional (inBlock bare : Bool) (stops : List Token) :
    Nat → List Token → Option (Node × List Token)
  | 0, _ => none
  | fuel + 1, tokens =>
      if omittedBefore stops tokens then some (empty, tokens)
      else readValue inBlock bare fuel tokens

private def readBlockItems : Nat → List Token → Option (List Node × List Token)
  | 0, _ => none
  | fuel + 1, tokens =>
      match tokens with
      | .dash :: rest => do
          let (item, rest) ← readOptional true false [.dash, .blockEnd] fuel rest
          let (items, rest) ← readBlockItems fuel rest
          return (item :: items, rest)
      | .blockEnd :: rest => some ([], rest)
      | _ => none

private def readBareItems : Nat → List Token → Option (List Node × List Token)
  | 0, _ => none
  | fuel + 1, tokens =>
      match tokens with
      | .dash :: rest => do
          let (item, rest) ← readOptional true false [.dash, .key, .value, .blockEnd] fuel rest
          let (items, rest) ← readBareItems fuel rest
          return (item :: items, rest)
      | _ => some ([], tokens)

private def readBlockEntries : Nat → List Token → Option (List (Node × Node) × List Token)
  | 0, _ => none
  | fuel + 1, tokens =>
      let stops : List Token := [.key, .value, .blockEnd]
      match tokens with
      | .key :: rest => do
          let (key, rest) ← readOptional true true stops fuel rest
          let (value, rest) ←
            match rest with
            | .value :: rest => readOptional true true stops fuel rest
            | _ => some (empty, rest)
          let (entries, rest) ← readBlockEntries fuel rest
          return ((key, value) :: entries, rest)
      | .blockEnd :: rest => some ([], rest)
      | _ => none

private def readFlowItems (first : Bool) : Nat → List Token → Option (List Node × List Token)
  | 0, _ => none
  | fuel + 1, tokens => do
      if tokens.head? == some .sequenceEnd then return ([], tokens.drop 1)
      let tokens ←
        match first, tokens with
        | true, _ => some tokens
        | false, .comma :: rest => some rest
        | false, _ => none
      match tokens with
      | .sequenceEnd :: rest => some ([], rest)
      | .key :: rest =>
          let (key, rest) ← readOptional false false [.value, .comma, .sequenceEnd] fuel rest
          let (value, rest) ←
            match rest with
            | .value :: rest => readOptional false false [.comma, .sequenceEnd] fuel rest
            | _ => some (empty, rest)
          let (items, rest) ← readFlowItems false fuel rest
          return (mapping [(key, value)] :: items, rest)
      | tokens =>
          let (item, rest) ← readValue false false fuel tokens
          let (items, rest) ← readFlowItems false fuel rest
          return (item :: items, rest)

private def readFlowEntries (first : Bool) :
    Nat → List Token → Option (List (Node × Node) × List Token)
  | 0, _ => none
  | fuel + 1, tokens => do
      if tokens.head? == some .mappingEnd then return ([], tokens.drop 1)
      let tokens ←
        match first, tokens with
        | true, _ => some tokens
        | false, .comma :: rest => some rest
        | false, _ => none
      match tokens with
      | .mappingEnd :: rest => some ([], rest)
      | .key :: rest =>
          let (key, rest) ← readOptional false false [.value, .comma, .mappingEnd] fuel rest
          let (value, rest) ←
            match rest with
            | .value :: rest => readOptional false false [.comma, .mappingEnd] fuel rest
            | _ => some (empty, rest)
          let (entries, rest) ← readFlowEntries false fuel rest
          return ((key, value) :: entries, rest)
      | tokens =>
          let (key, rest) ← readValue false false fuel tokens
          let (entries, rest) ← readFlowEntries false fuel rest
          return ((key, empty) :: entries, rest)

end

/-- The single document that a list of tokens spells out. -/
def ofTokens? (tokens : List Token) : Option Node := do
  let fuel := 2 * tokens.length + 2
  let (node, rest) ←
    match tokens with
    | [] => none
    | .documentStart :: rest => readOptional true false [.documentStart, .documentEnd] fuel rest
    | tokens => readValue true false fuel tokens
  if rest.all (· == .documentEnd) then some node else none

/-- The single document of a text. -/
def ofText? (text : String) : Option Node :=
  (tokens? text).bind ofTokens?

end Node

end NetlinkFamily.Yaml
