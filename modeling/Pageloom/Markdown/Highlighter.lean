import Pageloom.Text.Blank
import Pageloom.Text.Case
import Pageloom.Text.Reference

/-!
# Highlighters

Code in a language that a highlighter knows is written by the highlighter. Which languages these are
and how their code is marked up is its own matter, so it is a parameter of everything that writes a
document.

The highlighter in use knows plain text alone, in which there is nothing to mark: the code is
cleaned, and its markup characters are written as references.

## Main definitions

* `Markdown.Highlighter`: what is written for code in the languages that are known.
* `Highlighter.cleaned`: code as a highlighter takes it.
-/

namespace Pageloom.Markdown

/-- What is written for code in a language between the tags around all highlighted code, if the
language is known. -/
class Highlighter where
  markup? : (language : Text) → Option (Text → Text)

namespace Highlighter

/-- The code without a mark of its byte order, and with one line break for the blanks at its
ends. -/
def cleaned (code : Text) : Text :=
  let code := match code with
    | d :: ds => if d.toNat = 0xFEFF then ds else d :: ds
    | [] => []
  Text.strip (Text.unifyBreaks code) ++ ['\n']

instance : Highlighter where
  markup? language :=
    if Text.lower language = "text".toList then some fun code => Reference.escape (cleaned code)
    else none

end Highlighter

end Pageloom.Markdown
