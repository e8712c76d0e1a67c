import RelQuery.Text.Blank
import RelQuery.Text.Letter

/-!
# Lower camel case

Foreign keys are named after tables, and table names come in every convention: `blog_posts`,
`BlogPosts`, `blog-posts`, `HTMLPages`.  To write any of them in lower camel case a name is cut
into words, at the characters that are no letters and at the humps inside a piece, and the words are
put together again.

* `humps` cuts one piece of letters and digits at its humps.
* `camelWords` cuts a whole name.
* `lowerCamel` writes the words: the first small, the others with a capital in front.
-/

namespace RelQuery.Text

/-! ## Cutting into words -/

/-- The case that the word under construction has shown so far. -/
inductive WordCase where
  | fresh
  | small
  | capital
  deriving DecidableEq, Repr

/-- The case of a word after one more character: a character without case changes nothing. -/
def WordCase.after (state : WordCase) (c : Char) : WordCase :=
  if isLower c then .small else if isUpper c then .capital else state

/-- The words of a piece of letters and digits, the first of them continuing `word` (kept
reversed).  A word ends after a small letter that a capital follows, and before the last capital of
a run that a small letter follows: `parseHTMLPage` is `parse`, `HTML`, `Page`. -/
def humps (state : WordCase) (word : List Char) : List Char → List (List Char)
  | [] => []
  | [c] => [(c :: word).reverse]
  | c :: next :: rest =>
    if state.after c = .small && isUpper next then
      (c :: word).reverse :: humps .fresh [] (next :: rest)
    else if state = .capital && isUpper c && isLower next then
      word.reverse :: humps .fresh [c] (next :: rest)
    else humps (state.after c) (c :: word) (next :: rest)

/-- The words of a name: its pieces of letters and digits, each cut at its humps. -/
def camelWords (s : String) : List (List Char) :=
  (runsFrom (fun c => !isAlphanumeric c) [] s.toList).flatMap (humps .fresh [])

/-! ## Writing the words -/

/-- A word in small letters.  A capital sigma that ends the word takes its final form. -/
def smallWord : List Char → List Char
  | [] => []
  | [c] => if c = 'Σ' then ['ς'] else small c
  | c :: next :: rest => small c ++ smallWord (next :: rest)

/-- A word in small letters with a capital in front. -/
def titleWord : List Char → List Char
  | [] => []
  | c :: rest => capital c ++ smallWord rest

def lowerCamel (s : String) : String :=
  match camelWords s with
  | [] => ""
  | first :: rest => String.ofList (smallWord first ++ rest.flatMap titleWord)

end RelQuery.Text
