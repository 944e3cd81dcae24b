import Pageloom.Html.AbsoluteUrl
import Pageloom.Page
import Pageloom.Text.Case
import Pageloom.Value

/-!
# Helpers

A helper supplies the texts for tokens. It claims the tokens that it wants to be asked for; asked
for one, it gives a text, passes, or fails. Several helpers are asked in order until one of them
gives a text.

A helper from outside may answer by what it was asked for before, and so may it claim tokens. What
it remembers is the list of its earlier calls, which is the most that this can depend on, so every
such helper is a pair of functions of that list. It may also fail to say whether it claims a token.
Saying so is not a call, and nothing is remembered of it.

## Main definitions

* `Helper`: front matter, site data, the base address, the name, and helpers from outside.
* `Helper.claims`, `Helper.resolve`: which tokens a helper wants, and what it answers.
* `Helper.ask`: the answer of the first of several helpers that gives one.
-/

namespace Pageloom

/-- One question to a helper. -/
structure Call where
  token : Text
  page : Page
deriving Repr, DecidableEq

/-- A supplier of texts for tokens. -/
inductive Helper where
  /-- The entries of the page's front matter. -/
  | frontMatter
  /-- Texts by token. -/
  | data (values : Entries)
  /-- The base address for the token `BASE_URL`. -/
  | link (baseUrl : Text)
  /-- The name of the page for the token `NAME`. -/
  | name
  /-- A helper from outside, with its earlier calls, the newest first. -/
  | custom (claimed : List Call → Text → Except Failure Bool)
      (answer : List Call → Text → Page → Except Failure (Option Text)) (earlier : List Call)

namespace Helper

/-- The token for the name of the page. -/
def nameToken : Text := "NAME"

/-- The token for the base address. -/
def linkToken : Text := "BASE_URL"

/-- A helper with the given values. Names are claimed in upper case; of two names that agree then,
the first has the place and the last the value. -/
def ofValues (values : List (Value × Value)) : Helper :=
  .data (values.foldl (fun es (k, v) => Entries.put (Text.upper k.toText) v.toText es) [])

/-- A helper for a base address, whose slashes at the end do not count. -/
def ofBaseUrl (baseUrl : Text) : Helper := .link (Html.trimBase baseUrl)

/-- Whether a helper wants to be asked for a token. -/
def claims : Helper → Text → Except Failure Bool
  | .frontMatter, token => .ok (token ≠ nameToken)
  | .data values, token => .ok (values.get? token).isSome
  | .link _, token => .ok (token = linkToken)
  | .name, token => .ok (token = nameToken)
  | .custom claimed _ earlier, token => claimed earlier token

/-- The form in which names of front matter are compared with tokens. -/
def comparable (key : Text) : Text := Text.replaceChar '-' '_' (Text.lower key)

/-- The value of the first entry whose name, in lower case and with underscores for dashes, is the
token in lower case. -/
def inFrontMatter (token : Text) (entries : Entries) : Option Text :=
  (entries.find? fun (key, _) => comparable key = Text.lower token).map Prod.snd

/-- The answer of a helper, and the helper afterwards. -/
def resolve (h : Helper) (token : Text) (page : Page) : Except Failure (Option Text) × Helper :=
  match h with
  | .frontMatter => (.ok (inFrontMatter token page.frontMatter), h)
  | .data values =>
    match values.get? token with
    | some value => (.ok (some value), h)
    | none => (.error (.missing token), h)
  | .link baseUrl => (.ok (some baseUrl), h)
  | .name => (.ok page.name, h)
  | .custom claimed answer earlier =>
    (answer earlier token page, .custom claimed answer (⟨token, page⟩ :: earlier))

/-- Asks the helpers that claim a token, in order, until one gives a text or fails. -/
def ask (token : Text) (page : Page) : List Helper → Except Failure (Option Text) × List Helper
  | [] => (.ok none, [])
  | h :: hs =>
    match h.claims token with
    | .error e => (.error e, h :: hs)
    | .ok false =>
      let (answer, hs) := ask token page hs
      (answer, h :: hs)
    | .ok true =>
      match h.resolve token page with
      | (.ok none, h) =>
        let (answer, hs) := ask token page hs
        (answer, h :: hs)
      | (answer, h) => (answer, h :: hs)

end Helper

end Pageloom
