import EventProcessing.Table

namespace EventProcessing

structure ProcessorNames where
  assignments : Table String String := []
  rule : String → String := id

namespace ProcessorNames

def assign (names : ProcessorNames) (group processor : String) : ProcessorNames :=
  { names with assignments := names.assignments.put group processor }

def resolve (names : ProcessorNames) (group : String) : String :=
  (names.assignments.get? group).getD (names.rule group)

end ProcessorNames

end EventProcessing
