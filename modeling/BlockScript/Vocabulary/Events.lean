import BlockScript.Vocabulary.Operation

/-!
# Events

The hats, which begin a script, and the broadcasts.
-/

namespace BlockScript

namespace Vocabulary

/-- These operations, in the order in which they are tried. -/
def events : List Operation :=
  [⟨"event_whenflagclicked", .event, .hat, "when green flag clicked",
      [], ["when flag clicked", "when @greenFlag clicked"]⟩,
    .of "event_whenthisspriteclicked" .event .hat "when this sprite clicked" [],
    .of "event_whenbackdropswitchesto" .event .hat "when backdrop switches to [BACKDROP v]"
      [⟨"BACKDROP", .field⟩],
    .of "event_whenbroadcastreceived" .event .hat "when I receive [BROADCAST_OPTION v]"
      [⟨"BROADCAST_OPTION", .field⟩],
    .of "event_whenkeypressed" .event .hat "when [KEY_OPTION v] key pressed" [⟨"KEY_OPTION", .field⟩],
    .of "event_whengreaterthan" .event .hat "when [WHENGREATERTHANMENU v] > (VALUE)"
      [⟨"WHENGREATERTHANMENU", .choice ["loudness", "timer"]⟩, ⟨"VALUE", .raw⟩],
    .of "control_start_as_clone" .control .hat "when I start as a clone" [],
    .of "event_broadcastandwait" .event .command "broadcast (BROADCAST_INPUT v) and wait"
      [⟨"BROADCAST_INPUT", .menu .broadcast⟩],
    .of "event_broadcast" .event .command "broadcast (BROADCAST_INPUT v)"
      [⟨"BROADCAST_INPUT", .menu .broadcast⟩]]

end Vocabulary

end BlockScript
