import BlockScript.Vocabulary.Operation

/-!
# Operations of sensing

What the sprite touches, the keyboard, the mouse, the timer and the answer.
-/

namespace BlockScript

namespace Operation

/-- Whether the sprite touches another one. -/
def touchingObject : Operation :=
  .of "sensing_touchingobject" .sensing .boolean "touching (TOUCHINGOBJECTMENU v)?"
    [⟨"TOUCHINGOBJECTMENU", .menu .touching⟩]

/-- Whether the sprite touches a colour. -/
def touchingColor : Operation :=
  .of "sensing_touchingcolor" .sensing .boolean "touching color (COLOR)?" [⟨"COLOR", .menu .color⟩]

/-- Whether a colour of the sprite touches another colour. -/
def colorTouchingColor : Operation :=
  .of "sensing_coloristouchingcolor" .sensing .boolean "color (COLOR) is touching color (COLOR2)?"
    [⟨"COLOR", .menu .color⟩, ⟨"COLOR2", .menu .color⟩]

/-- Whether a key is down. -/
def keyPressed : Operation :=
  .of "sensing_keypressed" .sensing .boolean "key (KEY_OPTION v) pressed?" [⟨"KEY_OPTION", .menu .key⟩]

/-- Whether the mouse button is down. -/
def mouseDown : Operation :=
  .of "sensing_mousedown" .sensing .boolean "mouse down?" []

end Operation

namespace Vocabulary

/-- These operations, in the order in which they are tried. -/
def sensing : List Operation :=
  [.of "sensing_askandwait" .sensing .command "ask (QUESTION) and wait" [⟨"QUESTION", .text⟩],
    .of "sensing_resettimer" .sensing .command "reset timer" [],
    .of "sensing_setdragmode" .sensing .command "set drag mode [DRAG_MODE v]"
      [⟨"DRAG_MODE", .choice ["draggable", "not draggable"]⟩],
    .touchingObject, .touchingColor, .colorTouchingColor, .keyPressed, .mouseDown,
    .of "sensing_distanceto" .sensing .reporter "distance to (DISTANCETOMENU v)"
      [⟨"DISTANCETOMENU", .menu .distance⟩],
    .of "sensing_answer" .sensing .reporter "answer" [],
    .of "sensing_mousex" .sensing .reporter "mouse x" [],
    .of "sensing_mousey" .sensing .reporter "mouse y" [],
    .of "sensing_loudness" .sensing .reporter "loudness" [],
    .of "sensing_timer" .sensing .reporter "timer" [],
    .of "sensing_username" .sensing .reporter "username" [],
    .of "sensing_dayssince2000" .sensing .reporter "days since 2000" [],
    .of "sensing_current" .sensing .reporter "current [CURRENTMENU v]"
      [⟨"CURRENTMENU", .choice ["year", "month", "date", "day of week", "hour", "minute", "second"]⟩]]

end Vocabulary

end BlockScript
