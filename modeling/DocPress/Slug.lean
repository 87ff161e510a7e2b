import DocPress.Text.Blank
import DocPress.Text.Letter
import DocPress.Text.LetterCase

/-!
Slugs: texts made of lower-case letters, digits and single hyphens, for use in addresses.
-/

namespace DocPress

/-- The characters that stay in a slug: letters and numbers, and hyphens for blanks and
underscores. -/
def slugChar? (c : Char) : Option Char :=
  if Text.isAlphanumeric c then some c
  else if Text.isBlank c || c = '-' || c = '_' then some '-'
  else none

/-- Parts that are not empty, with a separator between them. -/
def joinNonempty (separator : Char) (parts : List (List Char)) : List Char :=
  [separator].intercalate (parts.filter (!·.isEmpty))

/-- The slug of a text. -/
def slugify (text : List Char) : List Char :=
  joinNonempty '-' (Text.splitOn (· = '-') ((Text.toLower text).filterMap slugChar?))

/-- The slug of an identifier: the slugs of its parts between slashes. -/
def deriveSlug (identifier : List Char) : List Char :=
  joinNonempty '/' ((Text.splitOn (· = '/') identifier).map slugify)

end DocPress
