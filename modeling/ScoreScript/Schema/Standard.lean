import ScoreScript.Schema.Rule

/-!
The grammar that documents are held to where no other is given: scores in parts.
-/

namespace ScoreScript.StandardSchema

def oneOf (values : List String) : ValueRule :=
  { values }

def optional (value : ValueRule) : AttributeRule :=
  ⟨false, value⟩

def required (value : ValueRule) : AttributeRule :=
  ⟨true, value⟩

/-! ### Values -/

def yesNo : ValueRule :=
  oneOf ["yes", "no"]

def startStop : ValueRule :=
  oneOf ["start", "stop"]

def startStopContinue : ValueRule :=
  oneOf ["start", "stop", "continue"]

def startStopDiscontinue : ValueRule :=
  oneOf ["start", "stop", "discontinue"]

def aboveBelow : ValueRule :=
  oneOf ["above", "below"]

def leftCenterRight : ValueRule :=
  oneOf ["left", "center", "right"]

def valign : ValueRule :=
  oneOf ["top", "middle", "bottom", "baseline"]

def fontStyle : ValueRule :=
  oneOf ["normal", "italic"]

def fontWeight : ValueRule :=
  oneOf ["normal", "bold"]

def tenthsNumber : ValueRule :=
  { kind := .decimal }

def anyDecimal : ValueRule :=
  { kind := .decimal }

def anyInteger : ValueRule :=
  { kind := .integer }

def nonNegativeInteger : ValueRule :=
  { kind := .integer, min := some 0 }

def positiveInteger : ValueRule :=
  { kind := .integer, min := some 1 }

def positiveDivisions : ValueRule :=
  { kind := .decimal, min := some 0 }

def numberLevel : ValueRule :=
  { kind := .integer, min := some 1, max := some 16 }

def beamLevel : ValueRule :=
  { kind := .integer, min := some 1, max := some 8 }

def octaveNumber : ValueRule :=
  { kind := .integer, min := some 0, max := some 9 }

def stepName : ValueRule :=
  oneOf ["A", "B", "C", "D", "E", "F", "G"]

def noteTypeValue : ValueRule :=
  oneOf [
    "1024th", "512th", "256th", "128th", "64th", "32nd", "16th", "eighth", "quarter", "half",
    "whole", "breve", "long", "maxima"]

def symbolSize : ValueRule :=
  oneOf ["full", "cue", "grace-cue", "large"]

/-! ### Attributes that several elements have in common -/

def position : Assoc AttributeRule :=
  [("default-x", optional tenthsNumber), ("default-y", optional tenthsNumber)]

def placement : Assoc AttributeRule :=
  [("placement", optional aboveBelow)]

def font : Assoc AttributeRule :=
  [
    ("font-family", optional {}),
    ("font-style", optional fontStyle),
    ("font-size", optional {}),
    ("font-weight", optional fontWeight)]

def textFormatting : Assoc AttributeRule :=
  [
    ("xml:lang", optional {}),
    ("justify", optional leftCenterRight),
    ("halign", optional leftCenterRight),
    ("valign", optional valign)]

/-! ### Elements -/

def one (tag : String) : Particle :=
  ⟨.element tag, 1, some 1⟩

def atMostOne (tag : String) : Particle :=
  ⟨.element tag, 0, some 1⟩

def anyNumber (tag : String) : Particle :=
  ⟨.element tag, 0, none⟩

def atLeastOne (tag : String) : Particle :=
  ⟨.element tag, 1, none⟩

def anyNumberOf (tags : List String) : Particle :=
  ⟨.choice tags, 0, none⟩

def atLeastOneOf (tags : List String) : Particle :=
  ⟨.choice tags, 1, none⟩

def oneOfThese (tags : List String) : Particle :=
  ⟨.choice tags, 1, some 1⟩

def textOf (rule : ValueRule) : ElementRule :=
  { content := .text rule }

def anyText : ElementRule :=
  textOf {}

/-- A score and its parts. -/
def scoreRules : Assoc ElementRule := [
  ("score-partwise", {
    attributes := [("version", optional {})]
    content := .sequence [
      atMostOne "work",
      atMostOne "movement-number",
      atMostOne "movement-title",
      atMostOne "identification",
      atMostOne "defaults",
      anyNumber "credit",
      one "part-list",
      atLeastOne "part"] }),
  ("movement-number", anyText),
  ("movement-title", anyText),
  ("part", {
    attributes := [("id", required {})]
    content := .sequence [atLeastOne "measure"] }),
  ("measure", {
    attributes := [
      ("number", required {}),
      ("implicit", optional yesNo),
      ("non-controlling", optional yesNo),
      ("width", optional tenthsNumber),
      ("id", optional {})]
    content := .sequence [
      anyNumberOf [
        "note", "backup", "forward", "direction", "attributes", "harmony", "print", "sound",
        "barline"]] }),
  ("work", {
    content := .sequence [atMostOne "work-number", atMostOne "work-title", atMostOne "opus"] }),
  ("work-number", anyText),
  ("work-title", anyText),
  ("opus", {
    attributes := [
      ("xlink:href", required {}),
      ("xlink:type", optional (oneOf ["simple"])),
      ("xlink:role", optional {}),
      ("xlink:title", optional {}),
      ("xlink:show", optional (oneOf ["new", "replace", "embed", "other", "none"])),
      ("xlink:actuate", optional (oneOf ["onRequest", "onLoad", "other", "none"]))] }),
  ("identification", {
    content := .sequence [
      anyNumber "creator",
      anyNumber "rights",
      atMostOne "encoding",
      atMostOne "source"] }),
  ("creator", { attributes := [("type", optional {})], content := .text {} }),
  ("rights", { attributes := [("type", optional {})], content := .text {} }),
  ("source", anyText),
  ("encoding", {
    content := .sequence [
      anyNumberOf [
        "encoding-date", "encoder", "software", "encoding-description", "supports"]] }),
  ("software", anyText),
  ("encoding-date", anyText),
  ("encoder", { attributes := [("type", optional {})], content := .text {} }),
  ("encoding-description", anyText),
  ("supports", {
    attributes := [
      ("type", required yesNo),
      ("element", required {}),
      ("attribute", optional {}),
      ("value", optional {})] })]

/-- The look of pages, and what is printed on them. -/
def layoutRules : Assoc ElementRule := [
  ("defaults", {
    content := .sequence [
      atMostOne "scaling",
      atMostOne "page-layout",
      atMostOne "system-layout",
      anyNumber "staff-layout",
      atMostOne "music-font",
      atMostOne "word-font"] }),
  ("scaling", { content := .sequence [one "millimeters", one "tenths"] }),
  ("millimeters", textOf anyDecimal),
  ("tenths", textOf tenthsNumber),
  ("page-layout", {
    content := .sequence [
      atMostOne "page-height",
      atMostOne "page-width",
      ⟨.element "page-margins", 0, some 2⟩] }),
  ("page-height", textOf tenthsNumber),
  ("page-width", textOf tenthsNumber),
  ("page-margins", {
    attributes := [("type", optional (oneOf ["odd", "even", "both"]))]
    content := .sequence [
      one "left-margin",
      one "right-margin",
      one "top-margin",
      one "bottom-margin"] }),
  ("left-margin", textOf tenthsNumber),
  ("right-margin", textOf tenthsNumber),
  ("top-margin", textOf tenthsNumber),
  ("bottom-margin", textOf tenthsNumber),
  ("system-layout", {
    content := .sequence [
      atMostOne "system-margins",
      atMostOne "system-distance",
      atMostOne "top-system-distance"] }),
  ("system-margins", { content := .sequence [one "left-margin", one "right-margin"] }),
  ("system-distance", textOf tenthsNumber),
  ("top-system-distance", textOf tenthsNumber),
  ("staff-layout", {
    attributes := [("number", optional positiveInteger)]
    content := .sequence [atMostOne "staff-distance"] }),
  ("staff-distance", textOf tenthsNumber),
  ("music-font", { attributes := font }),
  ("word-font", { attributes := font }),
  ("credit", {
    attributes := [("page", optional positiveInteger)]
    content := .sequence [anyNumber "credit-type", atLeastOne "credit-words"] }),
  ("credit-type", anyText),
  ("credit-words", {
    attributes := textFormatting ++ position ++ font
    content := .text {} })]

/-- The list of parts and their instruments. -/
def partRules : Assoc ElementRule := [
  ("part-list", { content := .sequence [atLeastOneOf ["part-group", "score-part"]] }),
  ("part-group", {
    attributes := [("type", required startStop), ("number", optional {})]
    content := .sequence [
      atMostOne "group-name",
      atMostOne "group-symbol",
      atMostOne "group-barline"] }),
  ("group-name", anyText),
  ("group-symbol", textOf (oneOf ["none", "brace", "line", "bracket", "square"])),
  ("group-barline", textOf (oneOf ["yes", "no", "Mensurstrich"])),
  ("score-part", {
    attributes := [("id", required {})]
    content := .sequence [
      one "part-name",
      atMostOne "part-abbreviation",
      anyNumber "score-instrument",
      anyNumber "midi-device",
      anyNumber "midi-instrument"] }),
  ("part-name", {
    attributes := [("print-object", optional yesNo)]
    content := .text {} }),
  ("part-abbreviation", {
    attributes := [("print-object", optional yesNo)]
    content := .text {} }),
  ("midi-device", {
    attributes := [("id", optional {}), ("port", optional numberLevel)]
    content := .text {} }),
  ("score-instrument", {
    attributes := [("id", required {})]
    content := .sequence [
      one "instrument-name",
      atMostOne "instrument-abbreviation",
      atMostOne "instrument-sound"] }),
  ("instrument-name", anyText),
  ("instrument-abbreviation", anyText),
  ("instrument-sound", anyText),
  ("midi-instrument", {
    attributes := [("id", required {})]
    content := .sequence [
      atMostOne "midi-channel",
      atMostOne "midi-name",
      atMostOne "midi-bank",
      atMostOne "midi-program",
      atMostOne "midi-unpitched",
      atMostOne "volume",
      atMostOne "pan",
      atMostOne "elevation"] }),
  ("midi-channel", textOf numberLevel),
  ("midi-name", anyText),
  ("midi-bank", textOf { kind := .integer, min := some 1, max := some 16384 }),
  ("midi-program", textOf { kind := .integer, min := some 1, max := some 128 }),
  ("midi-unpitched", textOf { kind := .integer, min := some 1, max := some 128 }),
  ("volume", textOf { kind := .decimal, min := some 0, max := some 100 }),
  ("pan", textOf { kind := .decimal, min := some (-180), max := some 180 }),
  ("elevation", textOf { kind := .decimal, min := some (-180), max := some 180 })]

/-- Keys, times, clefs and transpositions. -/
def attributeRules : Assoc ElementRule := [
  ("attributes", {
    content := .sequence [
      atMostOne "divisions",
      anyNumber "key",
      anyNumber "time",
      atMostOne "staves",
      anyNumber "clef",
      anyNumber "transpose"] }),
  ("divisions", textOf positiveDivisions),
  ("staves", textOf nonNegativeInteger),
  ("key", {
    attributes := [("number", optional positiveInteger), ("print-object", optional yesNo)]
    content := .sequence [atMostOne "cancel", one "fifths", atMostOne "mode"] }),
  ("cancel", {
    attributes := [("location", optional (oneOf ["left", "right", "before-barline"]))]
    content := .text anyInteger }),
  ("fifths", textOf anyInteger),
  ("mode", textOf (oneOf [
      "major", "minor", "dorian", "phrygian", "lydian", "mixolydian", "aeolian", "ionian",
      "locrian", "none"])),
  ("time", {
    attributes := [
      ("number", optional positiveInteger),
      ("symbol", optional (oneOf [
          "common", "cut", "single-number", "note", "dotted-note", "normal"])),
      ("print-object", optional yesNo)]
    content := .sequence [atLeastOne "beats", atLeastOne "beat-type"] }),
  ("beats", anyText),
  ("beat-type", anyText),
  ("clef", {
    attributes := [("number", optional positiveInteger), ("print-object", optional yesNo)]
    content := .sequence [one "sign", atMostOne "line", atMostOne "clef-octave-change"] }),
  ("sign", textOf (oneOf ["G", "F", "C", "percussion", "TAB", "jianpu", "none"])),
  ("line", textOf anyInteger),
  ("clef-octave-change", textOf anyInteger),
  ("transpose", {
    attributes := [("number", optional positiveInteger)]
    content := .sequence [
      atMostOne "diatonic",
      one "chromatic",
      atMostOne "octave-change",
      atMostOne "double"] }),
  ("diatonic", textOf anyInteger),
  ("chromatic", textOf anyDecimal),
  ("octave-change", textOf anyInteger),
  ("double", {})]

/-- Notes and their parts. -/
def noteRules : Assoc ElementRule := [
  ("note", {
    attributes := position ++ [
      ("dynamics", optional anyDecimal),
      ("end-dynamics", optional anyDecimal),
      ("attack", optional anyDecimal),
      ("release", optional anyDecimal),
      ("pizzicato", optional yesNo),
      ("print-object", optional yesNo),
      ("print-spacing", optional yesNo)]
    content := .sequence [
      atMostOne "grace",
      atMostOne "cue",
      atMostOne "chord",
      oneOfThese ["pitch", "unpitched", "rest"],
      atMostOne "duration",
      ⟨.element "tie", 0, some 2⟩,
      anyNumber "instrument",
      atMostOne "footnote",
      atMostOne "level",
      atMostOne "voice",
      atMostOne "type",
      anyNumber "dot",
      atMostOne "accidental",
      atMostOne "time-modification",
      atMostOne "stem",
      atMostOne "notehead",
      atMostOne "staff",
      ⟨.element "beam", 0, some 8⟩,
      anyNumber "notations",
      anyNumber "lyric"] }),
  ("chord", {}),
  ("cue", {}),
  ("dot", { attributes := placement }),
  ("duration", textOf positiveDivisions),
  ("footnote", {
    attributes := textFormatting ++ position ++ font
    content := .text {} }),
  ("instrument", { attributes := [("id", required {})] }),
  ("level", { attributes := [("reference", optional yesNo)], content := .text {} }),
  ("voice", anyText),
  ("type", {
    attributes := [("size", optional symbolSize)]
    content := .text noteTypeValue }),
  ("staff", textOf positiveInteger),
  ("pitch", { content := .sequence [one "step", atMostOne "alter", one "octave"] }),
  ("step", textOf stepName),
  ("alter", textOf anyDecimal),
  ("octave", textOf octaveNumber),
  ("rest", {
    attributes := [("measure", optional yesNo)]
    content := .sequence [atMostOne "display-step", atMostOne "display-octave"] }),
  ("unpitched", {
    content := .sequence [atMostOne "display-step", atMostOne "display-octave"] }),
  ("display-step", textOf stepName),
  ("display-octave", textOf octaveNumber),
  ("grace", {
    attributes := [
      ("steal-time-previous", optional { kind := .decimal, min := some 0, max := some 100 }),
      ("steal-time-following", optional { kind := .decimal, min := some 0, max := some 100 }),
      ("make-time", optional anyDecimal),
      ("slash", optional yesNo)] }),
  ("tie", {
    attributes := [("type", required startStop), ("time-only", optional {})] }),
  ("accidental", {
    attributes := [
      ("cautionary", optional yesNo),
      ("editorial", optional yesNo),
      ("parentheses", optional yesNo),
      ("bracket", optional yesNo),
      ("size", optional symbolSize)]
    content := .text (oneOf [
      "sharp", "natural", "flat", "double-sharp", "sharp-sharp", "flat-flat", "natural-sharp",
      "natural-flat", "quarter-flat", "quarter-sharp", "three-quarters-flat",
      "three-quarters-sharp", "double-flat", "other"]) }),
  ("time-modification", {
    content := .sequence [
      one "actual-notes",
      one "normal-notes",
      atMostOne "normal-type",
      anyNumber "normal-dot"] }),
  ("actual-notes", textOf nonNegativeInteger),
  ("normal-notes", textOf nonNegativeInteger),
  ("normal-type", textOf noteTypeValue),
  ("normal-dot", {}),
  ("stem", {
    attributes := [("default-y", optional tenthsNumber)]
    content := .text (oneOf ["down", "up", "double", "none"]) }),
  ("notehead", {
    attributes := [("filled", optional yesNo), ("parentheses", optional yesNo)]
    content := .text (oneOf [
      "slash", "triangle", "diamond", "square", "cross", "x", "circle-x", "inverted triangle",
      "arrow down", "arrow up", "circled", "slashed", "back slashed", "normal", "cluster",
      "circle dot", "left triangle", "rectangle", "none", "do", "re", "mi", "fa", "fa up", "so",
      "la", "ti", "other"]) }),
  ("beam", {
    attributes := [
      ("number", optional beamLevel),
      ("repeater", optional yesNo),
      ("fan", optional (oneOf ["accel", "rit", "none"]))]
    content := .text (oneOf ["begin", "continue", "end", "forward hook", "backward hook"]) })]

/-- Marks on notes. -/
def markRules : Assoc ElementRule := [
  ("notations", {
    attributes := [("print-object", optional yesNo)]
    content := .sequence [
      anyNumberOf [
        "tied", "slur", "tuplet", "ornaments", "technical", "articulations", "dynamics",
        "fermata", "arpeggiate"]] }),
  ("tied", {
    attributes := placement ++ [
      ("type", required (oneOf ["start", "stop", "let-ring", "continue"])),
      ("number", optional numberLevel),
      ("orientation", optional (oneOf ["over", "under"]))] }),
  ("slur", {
    attributes := placement ++ [
      ("type", required startStopContinue),
      ("number", optional numberLevel),
      ("orientation", optional (oneOf ["over", "under"]))] }),
  ("tuplet", {
    attributes := placement ++ [
      ("type", required startStop),
      ("number", optional numberLevel),
      ("bracket", optional yesNo),
      ("show-number", optional (oneOf ["actual", "both", "none"])),
      ("show-type", optional (oneOf ["actual", "both", "none"]))] }),
  ("arpeggiate", {
    attributes := [
      ("number", optional numberLevel),
      ("direction", optional (oneOf ["up", "down"])),
      ("default-x", optional tenthsNumber)] }),
  ("ornaments", {
    content := .sequence [
      anyNumberOf [
        "trill-mark", "turn", "inverted-turn", "mordent", "inverted-mordent", "tremolo",
        "wavy-line"]] }),
  ("trill-mark", { attributes := placement ++ position }),
  ("turn", { attributes := placement ++ position }),
  ("inverted-turn", { attributes := placement ++ position }),
  ("mordent", { attributes := placement ++ position }),
  ("inverted-mordent", { attributes := placement ++ position }),
  ("tremolo", {
    attributes := placement ++ [
      ("type", optional (oneOf ["start", "stop", "single", "unmeasured"]))]
    content := .text { kind := .integer, min := some 0, max := some 8 } }),
  ("wavy-line", {
    attributes := placement ++ [
      ("type", required startStopContinue),
      ("number", optional numberLevel)] }),
  ("technical", {
    content := .sequence [
      anyNumberOf [
        "up-bow", "down-bow", "harmonic", "open-string", "fingering", "string", "fret"]] }),
  ("up-bow", { attributes := placement ++ position }),
  ("down-bow", { attributes := placement ++ position }),
  ("harmonic", { attributes := placement ++ position }),
  ("open-string", { attributes := placement ++ position }),
  ("fingering", {
    attributes := placement ++ [
      ("substitution", optional yesNo),
      ("alternate", optional yesNo)]
    content := .text {} }),
  ("string", { attributes := placement, content := .text positiveInteger }),
  ("fret", textOf nonNegativeInteger),
  ("articulations", {
    content := .sequence [
      anyNumberOf [
        "accent", "strong-accent", "staccato", "tenuto", "detached-legato", "staccatissimo",
        "spiccato", "breath-mark", "caesura"]] }),
  ("accent", { attributes := placement ++ position }),
  ("strong-accent", {
    attributes := placement ++ [("type", optional (oneOf ["up", "down"]))] }),
  ("staccato", { attributes := placement ++ position }),
  ("tenuto", { attributes := placement ++ position }),
  ("detached-legato", { attributes := placement ++ position }),
  ("staccatissimo", { attributes := placement ++ position }),
  ("spiccato", { attributes := placement ++ position }),
  ("breath-mark", {
    attributes := placement
    content := .text (oneOf ["", "comma", "tick", "upbow", "salzedo"]) }),
  ("caesura", {
    attributes := placement
    content := .text (oneOf ["", "normal", "thick", "short", "curved", "single"]) }),
  ("dynamics", {
    attributes := placement ++ position
    content := .sequence [
      anyNumberOf [
        "p", "pp", "ppp", "mp", "mf", "f", "ff", "fff", "sf", "sfz", "fp", "other-dynamics"]] }),
  ("p", {}),
  ("pp", {}),
  ("ppp", {}),
  ("mp", {}),
  ("mf", {}),
  ("f", {}),
  ("ff", {}),
  ("fff", {}),
  ("sf", {}),
  ("sfz", {}),
  ("fp", {}),
  ("other-dynamics", anyText),
  ("fermata", {
    attributes := [("type", optional (oneOf ["upright", "inverted"]))]
    content := .text (oneOf [
      "", "normal", "angled", "square", "double-angled", "double-square", "double-dot",
      "half-curve", "curlew"]) })]

/-- Lyrics. -/
def lyricRules : Assoc ElementRule := [
  ("lyric", {
    attributes := placement ++ [
      ("number", optional {}),
      ("name", optional {}),
      ("justify", optional leftCenterRight),
      ("default-y", optional tenthsNumber)]
    content := .sequence [
      atMostOne "syllabic",
      atMostOne "text",
      atMostOne "elision",
      atMostOne "extend",
      atMostOne "laughing",
      atMostOne "humming",
      atMostOne "end-line",
      atMostOne "end-paragraph"] }),
  ("syllabic", textOf (oneOf ["single", "begin", "end", "middle"])),
  ("text", {
    attributes := textFormatting ++ position ++ font
    content := .text {} }),
  ("elision", anyText),
  ("extend", { attributes := [("type", optional startStopContinue)] }),
  ("laughing", {}),
  ("humming", {}),
  ("end-line", {}),
  ("end-paragraph", {})]

/-- What else a measure holds. -/
def directionRules : Assoc ElementRule := [
  ("backup", { content := .sequence [one "duration"] }),
  ("forward", {
    content := .sequence [one "duration", atMostOne "voice", atMostOne "staff"] }),
  ("direction", {
    attributes := placement ++ [("directive", optional yesNo)]
    content := .sequence [
      atLeastOne "direction-type",
      atMostOne "offset",
      atMostOne "voice",
      atMostOne "staff",
      atMostOne "sound"] }),
  ("offset", {
    attributes := [("sound", optional yesNo)]
    content := .text anyDecimal }),
  ("direction-type", {
    content := .sequence [
      atLeastOneOf [
        "rehearsal", "segno", "coda", "words", "wedge", "dynamics", "dashes", "pedal",
        "metronome", "octave-shift", "other-direction"]] }),
  ("rehearsal", {
    attributes := textFormatting ++ position ++ font
    content := .text {} }),
  ("words", {
    attributes := textFormatting ++ position ++ font
    content := .text {} }),
  ("segno", {}),
  ("coda", {}),
  ("wedge", {
    attributes := [
      ("type", required (oneOf ["crescendo", "diminuendo", "stop", "continue"])),
      ("number", optional numberLevel),
      ("spread", optional tenthsNumber)] }),
  ("dashes", {
    attributes := [("type", required startStopContinue), ("number", optional numberLevel)] }),
  ("pedal", {
    attributes := [
      ("type", required (oneOf [
          "start", "stop", "sostenuto", "change", "continue", "discontinue", "resume"])),
      ("line", optional yesNo),
      ("sign", optional yesNo)] }),
  ("octave-shift", {
    attributes := [
      ("type", required (oneOf ["up", "down", "stop", "continue"])),
      ("number", optional numberLevel),
      ("size", optional positiveInteger)] }),
  ("other-direction", anyText),
  ("metronome", {
    attributes := [("parentheses", optional yesNo)]
    content := .sequence [one "beat-unit", anyNumber "beat-unit-dot", one "per-minute"] }),
  ("beat-unit", textOf noteTypeValue),
  ("beat-unit-dot", {}),
  ("per-minute", anyText),
  ("sound", {
    attributes := [
      ("tempo", optional { kind := .decimal, min := some 0 }),
      ("dynamics", optional { kind := .decimal, min := some 0 }),
      ("dacapo", optional yesNo),
      ("segno", optional {}),
      ("dalsegno", optional {}),
      ("coda", optional {}),
      ("tocoda", optional {}),
      ("fine", optional {}),
      ("forward-repeat", optional yesNo),
      ("pizzicato", optional yesNo)] }),
  ("print", {
    attributes := [
      ("new-system", optional yesNo),
      ("new-page", optional yesNo),
      ("blank-page", optional positiveInteger),
      ("page-number", optional {}),
      ("staff-spacing", optional tenthsNumber)]
    content := .sequence [
      atMostOne "page-layout",
      atMostOne "system-layout",
      anyNumber "staff-layout",
      atMostOne "measure-numbering"] }),
  ("measure-numbering", textOf (oneOf ["none", "measure", "system"])),
  ("barline", {
    attributes := [
      ("location", optional (oneOf ["right", "left", "middle"])),
      ("segno", optional {}),
      ("coda", optional {}),
      ("divisions", optional positiveDivisions)]
    content := .sequence [
      atMostOne "bar-style",
      ⟨.element "fermata", 0, some 2⟩,
      atMostOne "ending",
      atMostOne "repeat"] }),
  ("bar-style", textOf (oneOf [
      "regular", "dotted", "dashed", "heavy", "light-light", "light-heavy", "heavy-light",
      "heavy-heavy", "tick", "short", "none"])),
  ("ending", {
    attributes := [
      ("number", required {}),
      ("type", required startStopDiscontinue),
      ("print-object", optional yesNo)]
    content := .text {} }),
  ("repeat", {
    attributes := [
      ("direction", required (oneOf ["backward", "forward"])),
      ("times", optional nonNegativeInteger),
      ("winged", optional (oneOf [
          "none", "straight", "curved", "double-straight", "double-curved"]))] }),
  ("harmony", {
    attributes := placement ++ [
      ("print-frame", optional yesNo),
      ("default-y", optional tenthsNumber)]
    content := .sequence [
      one "root",
      one "kind",
      atMostOne "inversion",
      atMostOne "bass",
      atMostOne "staff"] }),
  ("root", { content := .sequence [one "root-step", atMostOne "root-alter"] }),
  ("root-step", textOf stepName),
  ("root-alter", textOf anyDecimal),
  ("kind", {
    attributes := [("text", optional {}), ("use-symbols", optional yesNo)]
    content := .text (oneOf [
      "major", "minor", "augmented", "diminished", "dominant", "major-seventh", "minor-seventh",
      "diminished-seventh", "augmented-seventh", "half-diminished", "major-minor", "major-sixth",
      "minor-sixth", "dominant-ninth", "major-ninth", "minor-ninth", "dominant-11th",
      "major-11th", "minor-11th", "dominant-13th", "major-13th", "minor-13th", "suspended-second",
      "suspended-fourth", "Neapolitan", "Italian", "French", "German", "pedal", "power",
      "Tristan", "other", "none"]) }),
  ("inversion", textOf nonNegativeInteger),
  ("bass", { content := .sequence [one "bass-step", atMostOne "bass-alter"] }),
  ("bass-step", textOf stepName),
  ("bass-alter", textOf anyDecimal)]

end ScoreScript.StandardSchema

namespace ScoreScript

/-- The grammar of scores in parts. -/
def Schema.standard : Schema :=
  ⟨"musicxml", "4.0",
    StandardSchema.scoreRules ++ StandardSchema.layoutRules ++ StandardSchema.partRules ++
      StandardSchema.attributeRules ++ StandardSchema.noteRules ++ StandardSchema.markRules ++
      StandardSchema.lyricRules ++ StandardSchema.directionRules⟩

end ScoreScript
