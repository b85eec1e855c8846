/-! White space as Unicode defines it, and trimming. The set is larger than `Char.isWhitespace`,
and a text is blank when nothing is left of it after trimming. -/

namespace JobEngine.Text

/-- The code points with the property White_Space, as inclusive ranges. -/
def blankRanges : List (Nat × Nat) :=
  [(0x09, 0x0D), (0x20, 0x20), (0x85, 0x85), (0xA0, 0xA0), (0x1680, 0x1680), (0x2000, 0x200A),
    (0x2028, 0x2029), (0x202F, 0x202F), (0x205F, 0x205F), (0x3000, 0x3000)]

def isBlankChar (c : Char) : Bool :=
  blankRanges.any fun r => r.1 ≤ c.toNat && c.toNat ≤ r.2

def trimChars (cs : List Char) : List Char :=
  ((cs.dropWhile isBlankChar).reverse.dropWhile isBlankChar).reverse

def trim (s : String) : String := String.ofList (trimChars s.toList)

def isBlank (s : String) : Bool := s.toList.all isBlankChar

theorem dropWhile_eq_nil_iff {p : α → Bool} {l : List α} :
    l.dropWhile p = [] ↔ ∀ x ∈ l, p x = true := by
  induction l with
  | nil => simp
  | cons x rest ih => by_cases h : p x <;> simp [h, ih]

theorem trimChars_eq_nil_iff (cs : List Char) :
    trimChars cs = [] ↔ ∀ c ∈ cs, isBlankChar c = true := by
  unfold trimChars
  rw [List.reverse_eq_nil_iff, dropWhile_eq_nil_iff]
  constructor
  · intro h c hc
    rw [← List.takeWhile_append_dropWhile (p := isBlankChar) (l := cs), List.mem_append] at hc
    rcases hc with hc | hc
    · exact List.all_eq_true.1 (List.all_takeWhile) c hc
    · exact h c (List.mem_reverse.2 hc)
  · intro h c hc
    exact h c ((List.dropWhile_sublist _).subset (List.mem_reverse.1 hc))

/-- Nothing is left of a text after trimming just when it is blank. -/
theorem trim_eq_empty_iff (s : String) : trim s = "" ↔ isBlank s := by
  unfold trim isBlank
  rw [String.ofList_eq_empty_iff, trimChars_eq_nil_iff, List.all_eq_true]

/-- ASCII capitals in lower case; other characters unchanged. -/
def lowercase (s : String) : String := String.ofList (s.toList.map Char.toLower)

end JobEngine.Text
