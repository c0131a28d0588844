/-!
# Shortening a text for a message

A long text is cut after a number of characters, and its full length is noted behind the cut.
-/

namespace HoonReader.Text

/-- The number of characters that a cut at `limit` keeps of a text of `length` characters;
    a negative limit counts from the end of the text. -/
def keptAt (limit : Int) (length : Nat) : Nat :=
  if 0 ≤ limit then limit.toNat else (limit + length).toNat

/-- The text itself if it has at most `limit` characters, else its beginning and its length. -/
def shortened (text : String) (limit : Int) : String :=
  if (text.length : Int) ≤ limit then text
  else
    String.ofList (text.toList.take (keptAt limit text.length)) ++
      "... (" ++ toString text.length ++ " characters)"

/-- **A text within the limit is shown whole.** -/
theorem shortened_of_length_le {text : String} {limit : Int} (h : (text.length : Int) ≤ limit) :
    shortened text limit = text :=
  if_pos h

end HoonReader.Text
