import BlockScript.Vocabulary.Operation

/-!
# Operations of sound

Sounds, their effects and the volume.
-/

namespace BlockScript

/-- The effects on sounds. -/
def soundEffects : List String :=
  ["pitch", "pan left/right"]

namespace Vocabulary

/-- These operations, in the order in which they are tried. -/
def sound : List Operation :=
  [.of "sound_playuntildone" .sound .command "play sound (SOUND_MENU v) until done"
      [⟨"SOUND_MENU", .menu .sound⟩],
    ⟨"sound_play", .sound, .command, "play sound (SOUND_MENU v)",
      [⟨"SOUND_MENU", .menu .sound⟩], ["start sound (SOUND_MENU v)"]⟩,
    .of "sound_stopallsounds" .sound .command "stop all sounds" [],
    .of "sound_changeeffectby" .sound .command "change [EFFECT v] effect by (VALUE)"
      [⟨"EFFECT", .choice soundEffects⟩, ⟨"VALUE", .number⟩],
    .of "sound_seteffectto" .sound .command "set [EFFECT v] effect to (VALUE)"
      [⟨"EFFECT", .choice soundEffects⟩, ⟨"VALUE", .number⟩],
    .of "sound_cleareffects" .sound .command "clear sound effects" [],
    .of "sound_changevolumeby" .sound .command "change volume by (VOLUME)" [⟨"VOLUME", .number⟩],
    .of "sound_setvolumeto" .sound .command "set volume to (VOLUME) %" [⟨"VOLUME", .number⟩],
    .of "sound_volume" .sound .reporter "volume" []]

end Vocabulary

end BlockScript
