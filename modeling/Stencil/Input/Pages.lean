/-!
# Pages of characters

Characters that are kept for reading them again stand in pages of a fixed size, so that adding one
never moves those before it.

* `Pages.push`: adds a character, in a new page when the last one is full;
* `Pages.get?`: the character at an index, by its page and its place in the page;
* `Pages.toList`: all characters in order.
-/

namespace Stencil

/-- Characters in pages, and their number. -/
structure Pages where
  pages : Array (Array Char)
  count : Nat

namespace Pages

/-- The number of characters in a full page. -/
def pageSize : Nat := 1024

/-- No pages. -/
def empty : Pages := ⟨#[], 0⟩

/-- Adds a character behind all others. -/
def push (p : Pages) (c : Char) : Pages :=
  let pages := if p.count % pageSize = 0 then p.pages.push #[] else p.pages
  { pages := pages.modify (pages.size - 1) (·.push c), count := p.count + 1 }

/-- The character at an index; nothing when there is no such page, or no such place in it. -/
def get? (p : Pages) (index : Nat) : Option Char :=
  (p.pages[index / pageSize]?).bind (·[index % pageSize]?)

/-- All characters, page after page. -/
def toList (p : Pages) : List Char := p.pages.toList.flatMap Array.toList

end Pages

end Stencil
