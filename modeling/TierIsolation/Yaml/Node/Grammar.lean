import TierIsolation.Yaml.Node
import TierIsolation.Yaml.Token.Layout

/-!
# From tokens to nodes

`Tree.parse?` reads a YAML text with at most one document; a text without one reads as nothing. A
node may be left out where the grammar shows that one belongs there.

A node after an anchor is put into the slot whose number is the count of the different names seen
before it, and the name then stands for that slot.
-/

namespace TierIsolation.Yaml

/-- The tokens that are left, and the slots that names stand for. -/
structure Remaining where
  tokens : List Token
  names : List (String × Nat) := []

namespace Remaining

/-- The same with other tokens left. -/
def withTokens (r : Remaining) (tokens : List Token) : Remaining := { r with tokens }

/-- A slot for the name of a node that starts here. -/
def place (r : Remaining) (name : String) : Nat × Remaining :=
  let slot := r.names.length
  (slot, { r with names := (name, slot) :: r.names.filter (·.1 != name) })

end Remaining

/-- What handles of tags stand for. -/
abbrev Handles := List (String × Address)

namespace Handles

/-- The handles that need no directive. -/
def standard : Handles :=
  [("!", Address.ofAscii ['!']), ("!!", Address.ofAscii "tag:yaml.org,2002:".toList)]

/-- The tag of a handle and a suffix. -/
def tag? (handles : Handles) (handle : String) (suffix : Address) : Option Address :=
  if handle.isEmpty then some suffix else (handles.lookup handle).map (· ++ suffix)

end Handles

def anchor? (r : Remaining) : Option Nat × Remaining :=
  match r.tokens with
  | .anchor name :: rest =>
    let (slot, r) := (r.withTokens rest).place name
    (some slot, r)
  | _ => (none, r)

/-- Reads a tag, `none` for the whole if its handle stands for nothing. -/
def nodeTag? (handles : Handles) (r : Remaining) : Option (Option Address × Remaining) :=
  match r.tokens with
  | .tag handle suffix :: rest =>
    (handles.tag? handle suffix).map fun tag => (some tag, r.withTokens rest)
  | _ => some (none, r)

/-- Reads an anchor and a tag, in any order. -/
def properties? (handles : Handles) (r : Remaining) : Option (Properties × Remaining) := do
  match anchor? r with
  | (some slot, r) =>
    let (tag, r) ← nodeTag? handles r
    return (⟨some slot, tag⟩, r)
  | (none, r) =>
    let (tag, r) ← nodeTag? handles r
    let (slot, r) := if tag.isSome then anchor? r else (none, r)
    return (⟨slot, tag⟩, r)

/-- Does a list or an object in several lines go on, so that a node has been left out? -/
def endsBlockNode (inMapping : Bool) : List Token → Bool
  | .blockEntry :: _ => !inMapping
  | .key :: _ | .value :: _ => inMapping
  | .blockEnd :: _ => true
  | _ => false

/-- Has an item of a list without a start of its own been left out? -/
def endsBareItem : List Token → Bool
  | .blockEntry :: _ | .key :: _ | .value :: _ | .blockEnd :: _ => true
  | _ => false

/-- Has a node of an object in one line been left out? -/
def endsFlowNode : List Token → Bool
  | .flowEntry :: _ | .flowMappingEnd :: _ => true
  | _ => false

/-- Has the value of a single pair in a list in one line been left out? -/
def endsSingleValue : List Token → Bool
  | .flowEntry :: _ | .flowSequenceEnd :: _ => true
  | _ => false

/-- The tokens of the next item in one line; behind an item there is a comma or the end. -/
def nextInFlow? (first : Bool) (closing : Token) : List Token → Option (List Token)
  | [] => none
  | t :: rest =>
    if first || t == closing then some (t :: rest)
    else if t == .flowEntry then some rest
    else none

mutual

/-- Reads a node. Lists and objects in several lines may start here if `block`, and lists that do not
move right if `bare`. -/
def node? (handles : Handles) : Nat → Bool → Bool → Remaining → Option (Node × Remaining)
  | 0, _, _, _ => none
  | steps + 1, block, bare, r =>
    match r.tokens with
    | .reference name :: rest =>
      (r.names.lookup name).map fun slot => (.reference slot, r.withTokens rest)
    | _ =>
      match properties? handles r with
      | none => none
      | some (p, r) =>
        match r.tokens with
        | .scalar style text :: rest => some (.scalar p style text, r.withTokens rest)
        | .flowSequenceStart :: rest =>
          (flowItems? handles steps true (r.withTokens rest)).map fun (items, r) =>
            (.sequence p items, r)
        | .flowMappingStart :: rest =>
          (flowPairs? handles steps true (r.withTokens rest)).map fun (pairs, r) =>
            (.mapping p pairs, r)
        | t :: rest =>
          if bare && t == .blockEntry then
            (bareItems? handles steps r).map fun (items, r) => (.sequence p items, r)
          else if block && t == .blockSequenceStart then
            (blockItems? handles steps (r.withTokens rest)).map fun (items, r) =>
              (.sequence p items, r)
          else if block && t == .blockMappingStart then
            (blockPairs? handles steps (r.withTokens rest)).map fun (pairs, r) =>
              (.mapping p pairs, r)
          else if p.slot.isSome || p.tag.isSome then some (.scalar p .plain "", r)
          else none
        | [] => if p.slot.isSome || p.tag.isSome then some (.scalar p .plain "", r) else none

def blockItems? (handles : Handles) : Nat → Remaining → Option (List Node × Remaining)
  | 0, _ => none
  | steps + 1, r =>
    match r.tokens with
    | .blockEnd :: rest => some ([], r.withTokens rest)
    | .blockEntry :: rest =>
      match (if endsBlockNode false rest then some (Node.nothing, r.withTokens rest)
        else node? handles steps true false (r.withTokens rest)) with
      | none => none
      | some (item, r) => (blockItems? handles steps r).map fun (items, r) => (item :: items, r)
    | _ => none

/-- Reads the items of a list that is not further right than the key it belongs to. -/
def bareItems? (handles : Handles) : Nat → Remaining → Option (List Node × Remaining)
  | 0, _ => none
  | steps + 1, r =>
    match r.tokens with
    | .blockEntry :: rest =>
      match (if endsBareItem rest then some (Node.nothing, r.withTokens rest)
        else node? handles steps true false (r.withTokens rest)) with
      | none => none
      | some (item, r) => (bareItems? handles steps r).map fun (items, r) => (item :: items, r)
    | _ => some ([], r)

def blockPairs? (handles : Handles) : Nat → Remaining → Option (List (Node × Node) × Remaining)
  | 0, _ => none
  | steps + 1, r =>
    match r.tokens with
    | .blockEnd :: rest => some ([], r.withTokens rest)
    | .key :: rest =>
      match (if endsBlockNode true rest then some (Node.nothing, r.withTokens rest)
        else node? handles steps true true (r.withTokens rest)) with
      | none => none
      | some (k, r) =>
        match (match r.tokens with
          | .value :: rest =>
            if endsBlockNode true rest then some (Node.nothing, r.withTokens rest)
            else node? handles steps true true (r.withTokens rest)
          | _ => some (Node.nothing, r)) with
        | none => none
        | some (v, r) => (blockPairs? handles steps r).map fun (pairs, r) => ((k, v) :: pairs, r)
    | _ => none

/-- Reads the items of a list in one line. An item may be a single pair, which is an object. -/
def flowItems? (handles : Handles) : Nat → Bool → Remaining → Option (List Node × Remaining)
  | 0, _, _ => none
  | steps + 1, first, r =>
    match nextInFlow? first .flowSequenceEnd r.tokens with
    | none => none
    | some (.flowSequenceEnd :: rest) => some ([], r.withTokens rest)
    | some (.key :: rest) =>
      match singlePair? handles steps (r.withTokens rest) with
      | none => none
      | some (pair, r) =>
        (flowItems? handles steps false r).map fun (items, r) => (.mapping {} [pair] :: items, r)
    | some tokens =>
      match node? handles steps false false (r.withTokens tokens) with
      | none => none
      | some (item, r) =>
        (flowItems? handles steps false r).map fun (items, r) => (item :: items, r)

/-- Reads a single pair. Where its key has been left out, the token behind it is passed over. -/
def singlePair? (handles : Handles) : Nat → Remaining → Option ((Node × Node) × Remaining)
  | 0, _ => none
  | steps + 1, r =>
    match (match r.tokens with
      | .value :: rest | .flowEntry :: rest | .flowSequenceEnd :: rest =>
        some (Node.nothing, r.withTokens rest)
      | _ => node? handles steps false false r) with
    | none => none
    | some (k, r) =>
      match r.tokens with
      | .value :: rest =>
        if endsSingleValue rest then some ((k, Node.nothing), r.withTokens rest)
        else (node? handles steps false false (r.withTokens rest)).map fun (v, r) => ((k, v), r)
      | _ => some ((k, Node.nothing), r)

def flowPairs? (handles : Handles) :
    Nat → Bool → Remaining → Option (List (Node × Node) × Remaining)
  | 0, _, _ => none
  | steps + 1, first, r =>
    match nextInFlow? first .flowMappingEnd r.tokens with
    | none => none
    | some (.flowMappingEnd :: rest) => some ([], r.withTokens rest)
    | some (.key :: rest) =>
      match (match rest with
        | .value :: _ => some (Node.nothing, r.withTokens rest)
        | _ =>
          if endsFlowNode rest then some (Node.nothing, r.withTokens rest)
          else node? handles steps false false (r.withTokens rest)) with
      | none => none
      | some (k, r) =>
        match (match r.tokens with
          | .value :: rest =>
            if endsFlowNode rest then some (Node.nothing, r.withTokens rest)
            else node? handles steps false false (r.withTokens rest)
          | _ => some (Node.nothing, r)) with
        | none => none
        | some (v, r) =>
          (flowPairs? handles steps false r).map fun (pairs, r) => ((k, v) :: pairs, r)
    | some tokens =>
      match node? handles steps false false (r.withTokens tokens) with
      | none => none
      | some (k, r) =>
        (flowPairs? handles steps false r).map fun (pairs, r) => ((k, .nothing) :: pairs, r)

end

/-! ## Documents -/

/-- Reads the directives in front of a document. At most one names the version, which is 1.1 or
1.2, and no two are about the same handle. -/
def directives? (versioned : Bool) (handles : Handles) :
    List Token → Option (Handles × List Token)
  | .version major minor :: rest =>
    if versioned || major != 1 || (minor != 1 && minor != 2) then none
    else directives? true handles rest
  | .handle name start :: rest =>
    if (handles.lookup name).isSome then none
    else directives? versioned ((name, start) :: handles) rest
  | tokens => some (handles, tokens)

/-- Is there nothing between the start of a document and these tokens? -/
def endsDocument : List Token → Bool
  | [] | .version _ _ :: _ | .handle _ _ :: _ | .documentStart :: _ | .documentEnd :: _ => true
  | _ => false

def documentNode? (tokens : List Token) : Option (Node × List Token) := do
  let steps := 4 * (tokens.length + 1)
  match tokens with
  | [] => return (.nothing, [])
  | .version _ _ :: _ | .handle _ _ :: _ | .documentStart :: _ =>
    match ← directives? false [] tokens with
    | (handles, .documentStart :: rest) =>
      if endsDocument rest then return (.nothing, rest)
      else
        let (n, r) ← node? (handles ++ Handles.standard) steps true false ⟨rest, []⟩
        return (n, r.tokens)
    | _ => none
  | _ =>
    let (n, r) ← node? Handles.standard steps true false ⟨tokens, []⟩
    return (n, r.tokens)

/-- Reads a text with at most one document. -/
def Tree.parse? (text : String) : Option Tree := do
  let (root, rest) ← documentNode? (← Token.ofText? (← normalise? text.toList))
  if rest.all (· == .documentEnd) then return .ofRoot root else none

end TierIsolation.Yaml
