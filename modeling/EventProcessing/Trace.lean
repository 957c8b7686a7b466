namespace EventProcessing

inductive TraceLevel where
  | error
  | warn
  | info
  | debug
  deriving DecidableEq

def TraceLevel.rank : TraceLevel → Nat
  | .error => 0
  | .warn => 1
  | .info => 2
  | .debug => 3

def TraceLevel.text : TraceLevel → String
  | .error => "ERROR"
  | .warn => "WARN"
  | .info => "INFO"
  | .debug => "DEBUG"

structure TraceLine where
  level : TraceLevel
  isSpan : Bool
  text : String
  fields : List (String × String)

namespace TraceLine

def event (level : TraceLevel) (text : String) (fields : List (String × String)) : TraceLine :=
  ⟨level, false, text, fields⟩

def span (text : String) (fields : List (String × String)) : TraceLine :=
  ⟨.info, true, text, fields⟩

def isUpTo (line : TraceLine) (level : TraceLevel) : Bool := line.level.rank ≤ level.rank

def render (line : TraceLine) : String :=
  let mark := if line.isSpan then "SPAN" else line.level.text
  String.intercalate " " (mark :: line.text :: line.fields.map fun f => f.1 ++ "=" ++ f.2)

end TraceLine

inductive Metric where
  | messages (component outcome : String)
  | duration (component : String)
  deriving DecidableEq

def Metric.label : Metric → String
  | .messages component outcome =>
    "flowline_messages_total\x7bcomponent=" ++ component ++ ",outcome=" ++ outcome ++ "\x7d"
  | .duration component =>
    "flowline_message_duration_seconds\x7bcomponent=" ++ component ++ "\x7d"

end EventProcessing
