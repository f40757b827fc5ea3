import BlockScript.Vocabulary.Operation

/-!
# Operations of looks

Speech, costumes, backdrops, size, effects and layers.
-/

namespace BlockScript

/-- The graphic effects. -/
def looksEffects : List String :=
  ["color", "fisheye", "whirl", "pixelate", "mosaic", "brightness", "ghost"]

namespace Vocabulary

/-- These operations, in the order in which they are tried. -/
def looks : List Operation :=
  [.of "looks_sayforsecs" .looks .command "say (MESSAGE) for (SECS) seconds"
      [⟨"MESSAGE", .text⟩, ⟨"SECS", .number⟩],
    .of "looks_say" .looks .command "say (MESSAGE)" [⟨"MESSAGE", .text⟩],
    .of "looks_thinkforsecs" .looks .command "think (MESSAGE) for (SECS) seconds"
      [⟨"MESSAGE", .text⟩, ⟨"SECS", .number⟩],
    .of "looks_think" .looks .command "think (MESSAGE)" [⟨"MESSAGE", .text⟩],
    .of "looks_switchcostumeto" .looks .command "switch costume to (COSTUME v)"
      [⟨"COSTUME", .menu .costume⟩],
    .of "looks_nextcostume" .looks .command "next costume" [],
    .of "looks_switchbackdropto" .looks .command "switch backdrop to (BACKDROP v)"
      [⟨"BACKDROP", .menu .backdrop⟩],
    .of "looks_nextbackdrop" .looks .command "next backdrop" [],
    .of "looks_changesizeby" .looks .command "change size by (CHANGE)" [⟨"CHANGE", .number⟩],
    .of "looks_setsizeto" .looks .command "set size to (SIZE) %" [⟨"SIZE", .number⟩],
    .of "looks_changeeffectby" .looks .command "change [EFFECT v] effect by (CHANGE)"
      [⟨"EFFECT", .choice looksEffects⟩, ⟨"CHANGE", .number⟩],
    .of "looks_seteffectto" .looks .command "set [EFFECT v] effect to (VALUE)"
      [⟨"EFFECT", .choice looksEffects⟩, ⟨"VALUE", .number⟩],
    .of "looks_cleargraphiceffects" .looks .command "clear graphic effects" [],
    .of "looks_show" .looks .command "show" [],
    .of "looks_hide" .looks .command "hide" [],
    .of "looks_gotofrontback" .looks .command "go to [FRONT_BACK v] layer"
      [⟨"FRONT_BACK", .choice ["front", "back"]⟩],
    .of "looks_goforwardbackwardlayers" .looks .command "go [FORWARD_BACKWARD v] (NUM) layers"
      [⟨"FORWARD_BACKWARD", .choice ["forward", "backward"]⟩, ⟨"NUM", .wholeNumber⟩],
    .of "looks_size" .looks .reporter "size" [],
    .of "looks_costumenumbername" .looks .reporter "costume [NUMBER_NAME v]"
      [⟨"NUMBER_NAME", .choice ["number", "name"]⟩],
    .of "looks_backdropnumbername" .looks .reporter "backdrop [NUMBER_NAME v]"
      [⟨"NUMBER_NAME", .choice ["number", "name"]⟩]]

end Vocabulary

end BlockScript
