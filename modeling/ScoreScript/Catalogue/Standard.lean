import ScoreScript.Catalogue.Resolution

/-!
The element types that scripts can use where no others are given: those of scores in parts.
-/

namespace ScoreScript.StandardCatalogue

/-- A type that takes everything from its base. -/
def ofBase (base : String) : TypeDecl :=
  { base := some base }

def withFields (fields : List String) : TypeDecl :=
  { fields := some fields }

/-- Content that several types have in common. -/
def sharedTypes : List (String × TypeDecl) := [
  ("Empty", { isAbstract := true, fields := some [] }),
  ("EmptyPlacement", {
    isAbstract := true
    fields := some ["placement", "default_x", "default_y"] }),
  ("PlainText", { isAbstract := true, fields := some ["content"] }),
  ("PositiveDivisions", { isAbstract := true, fields := some ["content"] }),
  ("TypedText", { isAbstract := true, fields := some ["content", "type"] }),
  ("FormattedText", {
    isAbstract := true
    fields := some [
      "content", "lang", "justify", "halign", "valign", "default_x", "default_y", "font_family",
      "font_size", "font_style", "font_weight"]
    namespaces := [("lang", "xml")] }),
  ("EmptyFont", {
    isAbstract := true
    fields := some ["font_family", "font_style", "font_size", "font_weight"] }),
  ("NoteType", { isAbstract := true, fields := some ["content", "size"] }),
  ("Tenths", withFields ["content"])]

/-- A score and what identifies it. -/
def scoreTypes : List (String × TypeDecl) := [
  ("ScorePartwise", {
    fields := some [
      "version", "Work", "MovementNumber", "MovementTitle", "Identification", "Defaults",
      "Credit", "PartList", "Part"]
    order := some [
      "work", "movement-number", "movement-title", "identification", "defaults", "credit",
      "part-list", "part"]
    nested := [
      ("MovementNumber", ofBase "PlainText"),
      ("MovementTitle", ofBase "PlainText"),
      ("Part", {
        fields := some ["id", "Measure"]
        nested := [
          ("Measure", withFields [
            "number", "implicit", "non_controlling", "width", "Attributes", "Note", "Backup",
            "Forward", "Direction", "Harmony", "Barline", "Print", "Sound"])] })] }),
  ("Work", {
    fields := some ["WorkNumber", "WorkTitle", "Opus"]
    order := some ["work-number", "work-title", "opus"]
    nested := [
      ("WorkNumber", ofBase "PlainText"),
      ("WorkTitle", ofBase "PlainText"),
      ("Opus", {
        fields := some ["href", "type", "role", "title", "show", "actuate"]
        namespaces := [
          ("href", "xlink"), ("type", "xlink"), ("role", "xlink"), ("title", "xlink"),
          ("show", "xlink"), ("actuate", "xlink")] })] }),
  ("Identification", {
    fields := some ["Creator", "Rights", "Encoding", "Source"]
    order := some ["creator", "rights", "encoding", "source", "relation", "miscellaneous"]
    nested := [
      ("Creator", ofBase "TypedText"),
      ("Rights", ofBase "TypedText"),
      ("Source", ofBase "PlainText")] }),
  ("Encoding", {
    fields := some ["Software", "EncodingDate", "Encoder", "EncodingDescription", "Supports"]
    nested := [
      ("Software", ofBase "PlainText"),
      ("EncodingDate", ofBase "PlainText"),
      ("Encoder", ofBase "TypedText"),
      ("EncodingDescription", ofBase "PlainText"),
      ("Supports", withFields ["type", "element", "attribute", "value"])] })]

/-- The look of pages and systems, and what is printed on pages. -/
def layoutTypes : List (String × TypeDecl) := [
  ("Defaults", {
    fields := some [
      "Scaling", "PageLayout", "SystemLayout", "StaffLayout", "MusicFont", "WordFont"]
    order := some [
      "scaling", "concert-score", "page-layout", "system-layout", "staff-layout", "appearance",
      "music-font", "word-font", "lyric-font", "lyric-language"]
    nested := [
      ("MusicFont", ofBase "EmptyFont"),
      ("WordFont", ofBase "EmptyFont")] }),
  ("Scaling", {
    fields := some ["Millimeters", "Tenths"]
    order := some ["millimeters", "tenths"]
    nested := [
      ("Millimeters", ofBase "PlainText")] }),
  ("PageLayout", {
    fields := some ["PageHeight", "PageWidth", "PageMargins"]
    order := some ["page-height", "page-width", "page-margins"]
    nested := [
      ("PageHeight", ofBase "Tenths"),
      ("PageWidth", ofBase "Tenths")] }),
  ("PageMargins", {
    fields := some ["type", "LeftMargin", "RightMargin", "TopMargin", "BottomMargin"]
    order := some ["left-margin", "right-margin", "top-margin", "bottom-margin"] }),
  ("LeftMargin", ofBase "Tenths"),
  ("RightMargin", ofBase "Tenths"),
  ("TopMargin", ofBase "Tenths"),
  ("BottomMargin", ofBase "Tenths"),
  ("SystemLayout", {
    fields := some ["SystemMargins", "SystemDistance", "TopSystemDistance"]
    order := some [
      "system-margins", "system-distance", "top-system-distance", "system-dividers"]
    nested := [
      ("SystemMargins", {
        fields := some ["LeftMargin", "RightMargin"]
        order := some ["left-margin", "right-margin"] }),
      ("SystemDistance", ofBase "Tenths"),
      ("TopSystemDistance", ofBase "Tenths")] }),
  ("StaffLayout", {
    fields := some ["number", "StaffDistance"]
    nested := [
      ("StaffDistance", ofBase "Tenths")] }),
  ("Credit", {
    fields := some ["page", "CreditType", "CreditWords"]
    order := some [
      "credit-type", "link", "bookmark", "credit-image", "credit-words", "credit-symbol"]
    nested := [
      ("CreditType", ofBase "PlainText"),
      ("CreditWords", ofBase "FormattedText")] })]

/-- The list of parts and their instruments. -/
def partTypes : List (String × TypeDecl) := [
  ("PartList", withFields ["PartGroup", "ScorePart"]),
  ("PartGroup", {
    fields := some ["type", "number", "GroupName", "GroupSymbol", "GroupBarline"]
    order := some [
      "group-name", "group-name-display", "group-abbreviation", "group-abbreviation-display",
      "group-symbol", "group-barline", "group-time"]
    nested := [
      ("GroupName", ofBase "PlainText"),
      ("GroupSymbol", ofBase "PlainText"),
      ("GroupBarline", ofBase "PlainText")] }),
  ("ScorePart", {
    fields := some [
      "id", "PartName", "PartAbbreviation", "ScoreInstrument", "MidiDevice", "MidiInstrument"]
    order := some [
      "identification", "part-link", "part-name", "part-name-display", "part-abbreviation",
      "part-abbreviation-display", "group", "score-instrument", "player", "midi-device",
      "midi-instrument"]
    nested := [
      ("PartName", withFields ["content", "print_object"]),
      ("PartAbbreviation", withFields ["content", "print_object"]),
      ("MidiDevice", withFields ["content", "id", "port"])] }),
  ("ScoreInstrument", {
    fields := some ["id", "InstrumentName", "InstrumentAbbreviation", "InstrumentSound"]
    order := some [
      "instrument-name", "instrument-abbreviation", "instrument-sound", "solo", "ensemble",
      "virtual-instrument"]
    nested := [
      ("InstrumentName", ofBase "PlainText"),
      ("InstrumentAbbreviation", ofBase "PlainText"),
      ("InstrumentSound", ofBase "PlainText")] }),
  ("MidiInstrument", {
    fields := some [
      "id", "MidiChannel", "MidiName", "MidiBank", "MidiProgram", "MidiUnpitched", "Volume",
      "Pan", "Elevation"]
    order := some [
      "midi-channel", "midi-name", "midi-bank", "midi-program", "midi-unpitched", "volume", "pan",
      "elevation"]
    nested := [
      ("MidiChannel", ofBase "PlainText"),
      ("MidiName", ofBase "PlainText"),
      ("MidiBank", ofBase "PlainText"),
      ("MidiProgram", ofBase "PlainText"),
      ("MidiUnpitched", ofBase "PlainText"),
      ("Volume", ofBase "PlainText"),
      ("Pan", ofBase "PlainText"),
      ("Elevation", ofBase "PlainText")] })]

/-- Keys, times, clefs and transpositions. -/
def attributeTypes : List (String × TypeDecl) := [
  ("Attributes", {
    fields := some ["Divisions", "Key", "Time", "Staves", "Clef", "Transpose"]
    order := some [
      "footnote", "level", "divisions", "key", "time", "staves", "part-symbol", "instruments",
      "clef", "staff-details", "transpose", "directive", "measure-style"]
    nested := [
      ("Divisions", ofBase "PositiveDivisions"),
      ("Staves", ofBase "PlainText")] }),
  ("Key", {
    fields := some ["number", "print_object", "Cancel", "Fifths", "Mode"]
    order := some [
      "cancel", "fifths", "mode", "key-step", "key-alter", "key-accidental", "key-octave"]
    nested := [
      ("Cancel", withFields ["content", "location"]),
      ("Fifths", ofBase "PlainText"),
      ("Mode", ofBase "PlainText")] }),
  ("Time", {
    fields := some ["number", "symbol", "print_object", "Beats", "BeatType"]
    order := some ["beats", "beat-type", "interchangeable", "senza-misura"]
    nested := [
      ("Beats", ofBase "PlainText"),
      ("BeatType", ofBase "PlainText")] }),
  ("Clef", {
    fields := some ["number", "print_object", "Sign", "Line", "ClefOctaveChange"]
    order := some ["sign", "line", "clef-octave-change"]
    nested := [
      ("Sign", ofBase "PlainText"),
      ("Line", ofBase "PlainText"),
      ("ClefOctaveChange", ofBase "PlainText")] }),
  ("Transpose", {
    fields := some ["number", "Diatonic", "Chromatic", "OctaveChange", "Double"]
    order := some ["diatonic", "chromatic", "octave-change", "double"]
    nested := [
      ("Diatonic", ofBase "PlainText"),
      ("Chromatic", ofBase "PlainText"),
      ("OctaveChange", ofBase "PlainText"),
      ("Double", ofBase "Empty")] })]

/-- Notes and their parts. -/
def noteTypes : List (String × TypeDecl) := [
  ("Note", {
    fields := some [
      "default_x", "default_y", "dynamics", "end_dynamics", "attack", "release", "pizzicato",
      "print_object", "print_spacing", "Grace", "Cue", "Chord", "Pitch", "Unpitched", "Rest",
      "Duration", "Tie", "Instrument", "Footnote", "Level", "Voice", "Type", "Dot", "Accidental",
      "TimeModification", "Stem", "Notehead", "Staff", "Beam", "Notations", "Lyric"]
    order := some [
      "grace", "cue", "chord", "pitch", "unpitched", "rest", "duration", "tie", "instrument",
      "footnote", "level", "voice", "type", "dot", "accidental", "time-modification", "stem",
      "notehead", "notehead-text", "staff", "beam", "notations", "lyric", "play", "listen"]
    nested := [
      ("Chord", ofBase "Empty"),
      ("Cue", ofBase "Empty"),
      ("Dot", withFields ["placement"]),
      ("Duration", ofBase "PositiveDivisions"),
      ("Footnote", ofBase "FormattedText"),
      ("Instrument", withFields ["id"]),
      ("Level", withFields ["content", "reference"]),
      ("Type", ofBase "NoteType"),
      ("Staff", ofBase "PlainText"),
      ("Voice", ofBase "PlainText")] }),
  ("Pitch", {
    fields := some ["Step", "Alter", "Octave"]
    order := some ["step", "alter", "octave"]
    nested := [
      ("Step", ofBase "PlainText"),
      ("Alter", ofBase "PlainText"),
      ("Octave", ofBase "PlainText")] }),
  ("Rest", {
    fields := some ["measure", "DisplayStep", "DisplayOctave"]
    order := some ["display-step", "display-octave"] }),
  ("Unpitched", {
    fields := some ["DisplayStep", "DisplayOctave"]
    order := some ["display-step", "display-octave"] }),
  ("DisplayStep", ofBase "PlainText"),
  ("DisplayOctave", ofBase "PlainText"),
  ("Grace", withFields [
    "steal_time_previous", "steal_time_following", "make_time", "slash"]),
  ("Tie", withFields ["type", "time_only"]),
  ("Accidental", withFields [
    "content", "cautionary", "editorial", "parentheses", "bracket", "size"]),
  ("TimeModification", {
    fields := some ["ActualNotes", "NormalNotes", "NormalType", "NormalDot"]
    order := some ["actual-notes", "normal-notes", "normal-type", "normal-dot"]
    nested := [
      ("ActualNotes", ofBase "PlainText"),
      ("NormalNotes", ofBase "PlainText"),
      ("NormalType", ofBase "PlainText"),
      ("NormalDot", ofBase "Empty")] }),
  ("Stem", withFields ["content", "default_y"]),
  ("Notehead", withFields ["content", "filled", "parentheses"]),
  ("Beam", withFields ["content", "number", "repeater", "fan"])]

/-- Marks on notes, and lyrics. -/
def markTypes : List (String × TypeDecl) := [
  ("Notations", {
    fields := some [
      "print_object", "Tied", "Slur", "Tuplet", "Ornaments", "Technical", "Articulations",
      "Dynamics", "Fermata", "Arpeggiate"]
    nested := [
      ("Tied", withFields ["type", "number", "orientation", "placement"]),
      ("Slur", withFields ["type", "number", "placement", "orientation"]),
      ("Tuplet", withFields [
        "type", "number", "bracket", "show_number", "show_type", "placement"]),
      ("Arpeggiate", withFields ["number", "direction", "default_x"])] }),
  ("Ornaments", {
    fields := some [
      "TrillMark", "Turn", "InvertedTurn", "Mordent", "InvertedMordent", "Tremolo", "WavyLine"]
    nested := [
      ("TrillMark", ofBase "EmptyPlacement"),
      ("Turn", ofBase "EmptyPlacement"),
      ("InvertedTurn", ofBase "EmptyPlacement"),
      ("Mordent", ofBase "EmptyPlacement"),
      ("InvertedMordent", ofBase "EmptyPlacement"),
      ("Tremolo", withFields ["content", "type", "placement"]),
      ("WavyLine", withFields ["type", "number", "placement"])] }),
  ("Technical", {
    fields := some ["UpBow", "DownBow", "Harmonic", "OpenString", "Fingering", "String", "Fret"]
    nested := [
      ("UpBow", ofBase "EmptyPlacement"),
      ("DownBow", ofBase "EmptyPlacement"),
      ("Harmonic", ofBase "EmptyPlacement"),
      ("OpenString", ofBase "EmptyPlacement"),
      ("Fingering", withFields ["content", "substitution", "alternate", "placement"]),
      ("String", withFields ["content", "placement"]),
      ("Fret", ofBase "PlainText")] }),
  ("Articulations", {
    fields := some [
      "Accent", "StrongAccent", "Staccato", "Tenuto", "DetachedLegato", "Staccatissimo",
      "Spiccato", "BreathMark", "Caesura"]
    nested := [
      ("Accent", ofBase "EmptyPlacement"),
      ("StrongAccent", withFields ["type", "placement"]),
      ("Staccato", ofBase "EmptyPlacement"),
      ("Tenuto", ofBase "EmptyPlacement"),
      ("DetachedLegato", ofBase "EmptyPlacement"),
      ("Staccatissimo", ofBase "EmptyPlacement"),
      ("Spiccato", ofBase "EmptyPlacement"),
      ("BreathMark", withFields ["content", "placement"]),
      ("Caesura", withFields ["content", "placement"])] }),
  ("Dynamics", {
    fields := some [
      "placement", "default_x", "default_y", "P", "Pp", "Ppp", "Mp", "Mf", "F", "Ff", "Fff", "Sf",
      "Sfz", "Fp", "OtherDynamics"]
    nested := [
      ("P", ofBase "Empty"),
      ("Pp", ofBase "Empty"),
      ("Ppp", ofBase "Empty"),
      ("Mp", ofBase "Empty"),
      ("Mf", ofBase "Empty"),
      ("F", ofBase "Empty"),
      ("Ff", ofBase "Empty"),
      ("Fff", ofBase "Empty"),
      ("Sf", ofBase "Empty"),
      ("Sfz", ofBase "Empty"),
      ("Fp", ofBase "Empty"),
      ("OtherDynamics", ofBase "PlainText")] }),
  ("Fermata", withFields ["content", "type"]),
  ("Lyric", {
    fields := some [
      "number", "name", "justify", "placement", "default_y", "Syllabic", "Text", "Elision",
      "Extend", "Laughing", "Humming", "EndLine", "EndParagraph"]
    order := some [
      "syllabic", "text", "elision", "extend", "laughing", "humming", "end-line", "end-paragraph",
      "footnote", "level"]
    nested := [
      ("Syllabic", ofBase "PlainText"),
      ("Text", ofBase "FormattedText"),
      ("Elision", ofBase "PlainText"),
      ("Extend", withFields ["type"]),
      ("Laughing", ofBase "Empty"),
      ("Humming", ofBase "Empty"),
      ("EndLine", ofBase "Empty"),
      ("EndParagraph", ofBase "Empty")] })]

/-- What else a measure holds. -/
def directionTypes : List (String × TypeDecl) := [
  ("Backup", {
    fields := some ["Duration"]
    nested := [
      ("Duration", ofBase "PositiveDivisions")] }),
  ("Forward", {
    fields := some ["Duration", "Voice", "Staff"]
    order := some ["duration", "footnote", "level", "voice", "staff"]
    nested := [
      ("Duration", ofBase "PositiveDivisions"),
      ("Voice", ofBase "PlainText"),
      ("Staff", ofBase "PlainText")] }),
  ("Direction", {
    fields := some [
      "placement", "directive", "DirectionType", "Offset", "Voice", "Staff", "Sound"]
    order := some [
      "direction-type", "offset", "footnote", "level", "voice", "staff", "sound", "listening"]
    nested := [
      ("Offset", withFields ["content", "sound"]),
      ("Voice", ofBase "PlainText"),
      ("Staff", ofBase "PlainText")] }),
  ("DirectionType", {
    fields := some [
      "Rehearsal", "Segno", "Coda", "Words", "Wedge", "Dynamics", "Dashes", "Pedal", "Metronome",
      "OctaveShift", "OtherDirection"]
    nested := [
      ("Rehearsal", ofBase "FormattedText"),
      ("Segno", ofBase "Empty"),
      ("Coda", ofBase "Empty"),
      ("Words", ofBase "FormattedText"),
      ("Wedge", withFields ["type", "number", "spread"]),
      ("Dashes", withFields ["type", "number"]),
      ("Pedal", withFields ["type", "line", "sign"]),
      ("OctaveShift", withFields ["type", "number", "size"]),
      ("OtherDirection", ofBase "PlainText")] }),
  ("Metronome", {
    fields := some ["parentheses", "BeatUnit", "BeatUnitDot", "PerMinute"]
    order := some ["beat-unit", "beat-unit-dot", "per-minute"]
    nested := [
      ("BeatUnit", ofBase "PlainText"),
      ("BeatUnitDot", ofBase "Empty"),
      ("PerMinute", ofBase "PlainText")] }),
  ("Sound", withFields [
    "tempo", "dynamics", "dacapo", "segno", "dalsegno", "coda", "tocoda", "fine",
    "forward_repeat", "pizzicato"]),
  ("Print", {
    fields := some [
      "new_system", "new_page", "blank_page", "page_number", "staff_spacing", "PageLayout",
      "SystemLayout", "StaffLayout", "MeasureNumbering"]
    order := some [
      "page-layout", "system-layout", "staff-layout", "measure-layout", "measure-numbering",
      "part-name-display", "part-abbreviation-display"]
    nested := [
      ("MeasureNumbering", ofBase "PlainText")] }),
  ("Barline", {
    fields := some [
      "location", "segno", "coda", "divisions", "BarStyle", "Fermata", "Ending", "Repeat"]
    order := some [
      "bar-style", "footnote", "level", "wavy-line", "segno", "coda", "fermata", "ending",
      "repeat"]
    nested := [
      ("BarStyle", ofBase "PlainText"),
      ("Ending", withFields ["content", "number", "type", "print_object"]),
      ("Repeat", withFields ["direction", "times", "winged"])] }),
  ("Harmony", {
    fields := some [
      "print_frame", "placement", "default_y", "Root", "Kind", "Inversion", "Bass", "Staff"]
    order := some [
      "root", "numeral", "function", "kind", "inversion", "bass", "degree", "frame", "offset",
      "footnote", "level", "staff"]
    nested := [
      ("Root", {
        fields := some ["RootStep", "RootAlter"]
        order := some ["root-step", "root-alter"]
        nested := [
          ("RootStep", ofBase "PlainText"),
          ("RootAlter", ofBase "PlainText")] }),
      ("Kind", withFields ["content", "text", "use_symbols"]),
      ("Inversion", ofBase "PlainText"),
      ("Bass", {
        fields := some ["BassStep", "BassAlter"]
        order := some ["bass-step", "bass-alter"]
        nested := [
          ("BassStep", ofBase "PlainText"),
          ("BassAlter", ofBase "PlainText")] }),
      ("Staff", ofBase "PlainText")] })]

def declaration : String :=
  "<?xml version=\"1.0\" encoding=\"UTF-8\" standalone=\"no\"?>"

def doctypes : Assoc String := [
  ("score-partwise",
    "<!DOCTYPE score-partwise PUBLIC \"-//Recordare//DTD MusicXML 4.0 Partwise//EN\" " ++
      "\"http://www.musicxml.org/dtds/partwise.dtd\">")]

def decl : CatalogueDecl :=
  ⟨declaration, doctypes,
    sharedTypes ++ scoreTypes ++ layoutTypes ++ partTypes ++ attributeTypes ++
      noteTypes ++ markTypes ++ directionTypes⟩

end ScoreScript.StandardCatalogue

namespace ScoreScript

/-- The catalogue of scores in parts. -/
def Catalogue.standard : Except Error Catalogue :=
  Catalogue.ofDecl StandardCatalogue.decl

end ScoreScript
