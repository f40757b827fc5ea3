import BlockScript.Vocabulary.Operation

/-!
# Operations of control

Waiting, containers, stopping and clones.
-/

namespace BlockScript

/-- What can be stopped. -/
def stopOptions : List String :=
  ["all", "this script", "other scripts in sprite"]

namespace Operation

/-- Repeats its body without end. -/
def forever : Operation :=
  .of "control_forever" .control .container "forever" []

/-- Repeats its body a number of times. -/
def repeatTimes : Operation :=
  .of "control_repeat" .control .container "repeat (TIMES)" [⟨"TIMES", .wholeNumber⟩]

/-- Repeats its body until a condition holds. -/
def repeatUntil : Operation :=
  .of "control_repeat_until" .control .container "repeat until <CONDITION>" [⟨"CONDITION", .boolean⟩]

/-- Runs its body if a condition holds. -/
def ifThen : Operation :=
  .of "control_if" .control .container "if <CONDITION> then" [⟨"CONDITION", .boolean⟩]

/-- Runs one of its two bodies. -/
def ifElse : Operation :=
  .of "control_if_else" .control .container "if <CONDITION> then ... else ... end"
    [⟨"CONDITION", .boolean⟩]

end Operation

namespace Vocabulary

/-- These operations, in the order in which they are tried. -/
def control : List Operation :=
  [.of "control_wait" .control .command "wait (DURATION) seconds" [⟨"DURATION", .positiveNumber⟩],
    .of "control_wait_until" .control .command "wait until <CONDITION>" [⟨"CONDITION", .boolean⟩],
    .forever, .repeatTimes, .repeatUntil, .ifThen, .ifElse,
    .of "control_stop" .control .command "stop [STOP_OPTION v]" [⟨"STOP_OPTION", .choice stopOptions⟩],
    .of "control_create_clone_of" .control .command "create clone of (CLONE_OPTION v)"
      [⟨"CLONE_OPTION", .menu .clone⟩],
    .of "control_delete_this_clone" .control .command "delete this clone" []]

end Vocabulary

end BlockScript
