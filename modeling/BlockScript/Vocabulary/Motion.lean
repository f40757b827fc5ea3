import BlockScript.Vocabulary.Operation

/-!
# Operations of motion

Moving and turning the sprite.
-/

namespace BlockScript

namespace Vocabulary

/-- These operations, in the order in which they are tried. -/
def motion : List Operation :=
  [.of "motion_movesteps" .motion .command "move (STEPS) steps" [⟨"STEPS", .number⟩],
    ⟨"motion_turnright", .motion, .command, "turn right (DEGREES) degrees",
      [⟨"DEGREES", .number⟩], ["turn cw (DEGREES) degrees"]⟩,
    ⟨"motion_turnleft", .motion, .command, "turn left (DEGREES) degrees",
      [⟨"DEGREES", .number⟩], ["turn ccw (DEGREES) degrees"]⟩,
    .of "motion_gotoxy" .motion .command "go to x: (X) y: (Y)" [⟨"X", .number⟩, ⟨"Y", .number⟩],
    .of "motion_goto" .motion .command "go to (TO v)" [⟨"TO", .menu .goto⟩],
    .of "motion_glidesecstoxy" .motion .command "glide (SECS) secs to x: (X) y: (Y)"
      [⟨"SECS", .number⟩, ⟨"X", .number⟩, ⟨"Y", .number⟩],
    .of "motion_glideto" .motion .command "glide (SECS) secs to (TO v)"
      [⟨"SECS", .number⟩, ⟨"TO", .menu .glide⟩],
    .of "motion_pointindirection" .motion .command "point in direction (DIRECTION)" [⟨"DIRECTION", .angle⟩],
    .of "motion_pointtowards" .motion .command "point towards (TOWARDS v)" [⟨"TOWARDS", .menu .towards⟩],
    .of "motion_changexby" .motion .command "change x by (DX)" [⟨"DX", .number⟩],
    .of "motion_setx" .motion .command "set x to (X)" [⟨"X", .number⟩],
    .of "motion_changeyby" .motion .command "change y by (DY)" [⟨"DY", .number⟩],
    .of "motion_sety" .motion .command "set y to (Y)" [⟨"Y", .number⟩],
    .of "motion_ifonedgebounce" .motion .command "if on edge, bounce" [],
    .of "motion_setrotationstyle" .motion .command "set rotation style [STYLE v]"
      [⟨"STYLE", .choice ["left-right", "don't rotate", "all around"]⟩],
    .of "motion_xposition" .motion .reporter "x position" [],
    .of "motion_yposition" .motion .reporter "y position" [],
    .of "motion_direction" .motion .reporter "direction" []]

end Vocabulary

end BlockScript
