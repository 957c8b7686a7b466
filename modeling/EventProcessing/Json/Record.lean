import EventProcessing.Json.Skip

namespace EventProcessing.Json

variable {α ς : Type}

def found (cs : List Char) : Except Fault Found := do
  match cs with
  | 'n' :: rest => let _ ← readWord "ull".toList rest; return .null
  | 't' :: rest => let _ ← readWord "rue".toList rest; return .bool true
  | 'f' :: rest => let _ ← readWord "alse".toList rest; return .bool false
  | '"' :: rest => return .string (← readString rest).1
  | '-' :: rest => return .number (← readNumber true rest).1
  | '[' :: _ => return .array
  | '\x7b' :: _ => return .object
  | c :: rest =>
    if c.isDigit then return .number (← readNumber false (c :: rest)).1 else .error .expectedValue
  | [] => .error .expectedValue

def mismatch (expected : String) (cs : List Char) : Except Fault α := do
  .error (.wrongType (← found cs) expected)

def naturalOf (expected : String) (bound : Nat) : Number → Except Fault Nat
  | .integer n =>
    if 0 ≤ n ∧ n < bound then .ok n.toNat else .error (.outOfRange n expected)
  | .double bits => .error (.wrongType (.number (.double bits)) expected)

def readNatural (expected : String) (bound : Nat) (cs : List Char) : Except Fault (Front Nat) := do
  match skipBlanks cs with
  | [] => .error .endInValue
  | '-' :: rest =>
    let (n, rest) ← readNumber true rest
    return (← naturalOf expected bound n, rest)
  | c :: rest =>
    if c.isDigit then
      let (n, rest) ← readNumber false (c :: rest)
      return (← naturalOf expected bound n, rest)
    else mismatch expected (c :: rest)

def readWord64 : Reader Nat := readNatural "u64" UInt64.size

def readWord32 : Reader Nat := readNatural "u32" UInt32.size

def readSize : Reader Nat := readNatural "usize" UInt64.size

def readStringValue (cs : List Char) : Except Fault (Front String) :=
  match skipBlanks cs with
  | [] => .error .endInValue
  | '"' :: rest => readString rest
  | cs => mismatch "a string" cs

def readOptional (value : Reader α) (cs : List Char) : Except Fault (Front (Option α)) :=
  match skipBlanks cs with
  | 'n' :: rest => do return (none, ← readWord "ull".toList rest)
  | cs => (value cs).map fun r => (some r.1, r.2)

def readUnit (cs : List Char) : Except Fault (List Char) :=
  match skipBlanks cs with
  | [] => .error .endInValue
  | 'n' :: rest => readWord "ull".toList rest
  | cs => mismatch "unit" cs

def readMap (depth : Nat) (cs : List Char) : Except Fault (Front Object) :=
  match skipBlanks cs, depth with
  | [], _ => .error .endInValue
  | '\x7b' :: _, 0 => .error .nestedTooDeep
  | '\x7b' :: rest, depth + 1 => readObject (entry (readValue depth)) .empty rest
  | cs, _ => mismatch "a map" cs

/-- How a record is read: `field` takes the value of a known key into the state, `finish` turns
the state into the record, `elements` reads the fields of a list. The depth is that of the values
inside. -/
structure RecordShape (ς α : Type) where
  expected : String
  start : ς
  field : Nat → ς → String → Except Fault (Reader ς)
  finish : ς → Except Fault α
  elements : Nat → Reader α

def unknownField (state : ς) : Except Fault (Reader ς) :=
  .ok fun cs => do return (state, ← skipValue cs)

def onceField (name : String) (earlier : Option α) (value : Reader α)
    (enter : α → ς) : Except Fault (Reader ς) :=
  match earlier with
  | some _ => .error (.duplicateField name)
  | none => .ok fun cs => (value cs).map fun r => (enter r.1, r.2)

def requiredField (name : String) : Option α → Except Fault α
  | some value => .ok value
  | none => .error (.missingField name)

def RecordShape.read (shape : RecordShape ς α) (depth : Nat) (cs : List Char) :
    Except Fault (Front α) := do
  match skipBlanks cs, depth with
  | [], _ => .error .endInValue
  | '[' :: _, 0 | '\x7b' :: _, 0 => .error .nestedTooDeep
  | '[' :: rest, depth + 1 =>
    let (value, rest) ← shape.elements depth rest
    return (value, ← closeList rest)
  | '\x7b' :: rest, depth + 1 =>
    let (state, rest) ← readObject (shape.field depth) shape.start rest
    return (← shape.finish state, rest)
  | cs, _ => mismatch shape.expected cs

def elementAt (index : Nat) (expected : String) (value : Reader α) (cs : List Char) :
    Except Fault (Front α) := do
  match ← nextElement (index == 0) cs with
  | some cs => value cs
  | none => .error (.wrongLength index expected)

def elementOr (index : Nat) (missing : α) (value : Reader α) (cs : List Char) :
    Except Fault (Front α) := do
  match ← nextElement (index == 0) cs with
  | some cs => value cs
  | none => return (missing, cs)

def readVariant (names : List (String × α)) (depth : Nat) (cs : List Char) :
    Except Fault (Front α) := do
  match skipBlanks cs, depth with
  | [], _ => .error .endInValue
  | '"' :: rest, _ =>
    let (name, rest) ← readString rest
    return (← variant name, rest)
  | '\x7b' :: _, 0 => .error .nestedTooDeep
  | '\x7b' :: rest, _ + 1 =>
    match ← nextKey true rest with
    | (none, _) => .error .expectedValue
    | (some name, rest) =>
      let value ← variant name
      let rest ← readUnit (← readColon rest)
      match skipBlanks rest with
      | [] => .error .endInObject
      | '\x7d' :: rest => return (value, rest)
      | _ => .error .expectedValue
  | _, _ => .error .expectedValue
where
  variant (name : String) : Except Fault α :=
    match names.lookup name with
    | some value => .ok value
    | none => .error (.unknownVariant name (names.map Prod.fst))

end EventProcessing.Json
