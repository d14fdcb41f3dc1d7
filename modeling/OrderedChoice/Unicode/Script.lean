import OrderedChoice.Unicode.Script.Runs

/-!
# Scripts

The scripts that there are tables of, with their long names and four-letter codes.
-/

namespace OrderedChoice.Unicode

/-- A writing system. -/
inductive Script where
  | arabic | armenian | cyrillic | devanagari | georgian | greek | han | hangul | hebrew
  | hiragana | katakana | latin | thai
  deriving DecidableEq, Repr

namespace Script

/-- The code points of a script. -/
def runs : Script → List Run
  | arabic => arabicRuns
  | armenian => armenianRuns
  | cyrillic => cyrillicRuns
  | devanagari => devanagariRuns
  | georgian => georgianRuns
  | greek => greekRuns
  | han => hanRuns
  | hangul => hangulRuns
  | hebrew => hebrewRuns
  | hiragana => hiraganaRuns
  | katakana => katakanaRuns
  | latin => latinRuns
  | thai => thaiRuns

/-- The script with a name or code, given in lower case. -/
def ofName? : String → Option Script
  | "arabic" | "arab" => some arabic
  | "armenian" | "armn" => some armenian
  | "cyrillic" | "cyrl" => some cyrillic
  | "devanagari" | "deva" => some devanagari
  | "georgian" | "geor" => some georgian
  | "greek" | "grek" => some greek
  | "han" | "hani" => some han
  | "hangul" | "hang" => some hangul
  | "hebrew" | "hebr" => some hebrew
  | "hiragana" | "hira" => some hiragana
  | "katakana" | "kana" => some katakana
  | "latin" | "latn" => some latin
  | "thai" => some thai
  | _ => none

end Script

end OrderedChoice.Unicode
