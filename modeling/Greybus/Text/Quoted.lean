import Greybus.Text.Cut

/-! Quoted texts. One pair of quotes around a text does not belong to it; a quote
without its partner does, and so does everything between the two. -/
namespace Greybus.Text

def quote (text : List Char) : List Char := '"' :: text ++ ['"']

def stripQuotes (text : List Char) : List Char :=
  match text with
  | '"' :: rest => (before? ['"'] rest).getD text
  | _ => text

theorem stripQuote (text : List Char) : stripQuotes (quote text) = text := by
  have h := beforeIff.mpr (rfl : text ++ ['"'] = text ++ ['"'])
  simp [stripQuotes, quote, h]

theorem stripBare {text : List Char} (bare : ∀ inner, text ≠ quote inner) : stripQuotes text = text := by
  unfold stripQuotes
  split
  · rename_i rest
    cases found : before? ['"'] rest with
    | none => rfl
    | some inner => exact absurd (congrArg ('"' :: ·) (beforeIff.mp found)) (bare inner)
  · rfl

end Greybus.Text
