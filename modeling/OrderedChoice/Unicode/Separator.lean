import OrderedChoice.Unicode.Run

/-!
# Separators, controls and reserved code points

The three general categories of separators, and the four of code points that have no
picture.
-/

namespace OrderedChoice.Unicode

/-- Spaces. -/
def spaceSeparatorRuns : List Run :=
  [⟨32, 32, 1⟩, ⟨160, 160, 1⟩, ⟨5760, 5760, 1⟩, ⟨8192, 8202, 1⟩, ⟨8239, 8239, 1⟩, ⟨8287, 8287, 1⟩,
   ⟨12288, 12288, 1⟩]

/-- The line separator. -/
def lineSeparatorRuns : List Run :=
  [⟨8232, 8232, 1⟩]

/-- The paragraph separator. -/
def paragraphSeparatorRuns : List Run :=
  [⟨8233, 8233, 1⟩]

/-- Control characters. -/
def controlRuns : List Run :=
  [⟨0, 31, 1⟩, ⟨127, 159, 1⟩]

/-- Invisible formatting characters. -/
def formatRuns : List Run :=
  [⟨173, 173, 1⟩, ⟨1536, 1541, 1⟩, ⟨1564, 1564, 1⟩, ⟨1757, 1757, 1⟩, ⟨1807, 1807, 1⟩,
   ⟨2192, 2193, 1⟩, ⟨2274, 2274, 1⟩, ⟨6158, 6158, 1⟩, ⟨8203, 8207, 1⟩, ⟨8234, 8238, 1⟩,
   ⟨8288, 8292, 1⟩, ⟨8294, 8303, 1⟩, ⟨65279, 65279, 1⟩, ⟨65529, 65531, 1⟩, ⟨69821, 69821, 1⟩,
   ⟨69837, 69837, 1⟩, ⟨78896, 78911, 1⟩, ⟨113824, 113827, 1⟩, ⟨119155, 119162, 1⟩,
   ⟨917505, 917505, 1⟩, ⟨917536, 917631, 1⟩]

/-- Surrogate code points. -/
def surrogateRuns : List Run :=
  [⟨55296, 57343, 1⟩]

/-- Code points for private use. -/
def privateUseRuns : List Run :=
  [⟨57344, 63743, 1⟩, ⟨983040, 1048573, 1⟩, ⟨1048576, 1114109, 1⟩]

end OrderedChoice.Unicode
