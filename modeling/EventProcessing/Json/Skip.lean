import EventProcessing.Json.Reader

/-!
Passing over a value that nobody asked for. Its form is checked, its depth is not limited.
-/

namespace EventProcessing.Json

inductive Frame where
  | list
  | object

def Frame.unclosed : Frame → Fault
  | .list => .endInList
  | .object => .endInObject

def Frame.expectedEnd : Frame → Fault
  | .list => .expectedListEnd
  | .object => .expectedObjectEnd

def skipKey (cs : List Char) : Except Fault (List Char) := do
  match skipBlanks cs with
  | [] => .error .endInObject
  | '"' :: rest =>
    match skipBlanks (← skipString rest) with
    | [] => .error .endInObject
    | ':' :: rest => return rest
    | _ => .error .expectedColon
  | _ => .error .keyNotString

inductive SkipSpot where
  | value
  | opened
  | closed

def closes? : Frame → List Char → Option (List Char)
  | .list, ']' :: rest => some rest
  | .object, '\x7d' :: rest => some rest
  | _, _ => none

def beforeValue : Frame → List Char → Except Fault (List Char)
  | .list, cs => .ok cs
  | .object, cs => skipKey cs

def skipScalar : List Char → Except Fault (List Char)
  | 'n' :: rest => readWord "ull".toList rest
  | 't' :: rest => readWord "rue".toList rest
  | 'f' :: rest => readWord "alse".toList rest
  | '"' :: rest => skipString rest
  | '-' :: rest => skipNumber rest
  | c :: rest => if c.isDigit then skipNumber (c :: rest) else .error .expectedValue
  | [] => .error .endInValue

/-- Between two characters that are read there are at most two steps. -/
def skipFrom : Nat → SkipSpot → List Frame → List Char → Except Fault (List Char)
  | 0, _, _, _ => .error .endInValue
  | fuel + 1, .value, frames, cs =>
    match skipBlanks cs with
    | '[' :: rest => skipFrom fuel .opened (.list :: frames) rest
    | '\x7b' :: rest => skipFrom fuel .opened (.object :: frames) rest
    | cs => do skipFrom fuel .closed frames (← skipScalar cs)
  | _ + 1, _, [], cs => .ok cs
  | fuel + 1, spot, frame :: frames, cs =>
    let cs := skipBlanks cs
    match closes? frame cs, spot, cs with
    | some rest, _, _ => skipFrom fuel .closed frames rest
    | none, _, [] => .error frame.unclosed
    | none, .closed, ',' :: rest => do
      skipFrom fuel .value (frame :: frames) (← beforeValue frame rest)
    | none, .closed, _ => .error frame.expectedEnd
    | none, _, cs => do skipFrom fuel .value (frame :: frames) (← beforeValue frame cs)

def skipValue (cs : List Char) : Except Fault (List Char) :=
  skipFrom (2 * cs.length + 2) .value [] cs

end EventProcessing.Json
