/-!
# Proofs/Text/Stops — where a run of characters ends

A scan takes the characters of a class that stand in front, all of them and no more if none of the
class comes next.
-/

namespace TreeRules.Text

variable {p : Char → Bool} {s r rest : List Char}

/-- The next character, if there is one, is none of these. -/
def Stops (p : Char → Bool) (rest : List Char) : Prop := ∀ c ∈ rest.head?, p c = false

theorem stops_nil (p : Char → Bool) : Stops p [] := fun _ h => nomatch h

theorem stops_cons {c : Char} (h : p c = false) (r : List Char) : Stops p (c :: r) := fun d hd => by
  obtain rfl := Option.some.inj hd
  exact h

/-- A run ends at two texts put together if it ends at each of them. -/
theorem Stops.append (hs : Stops p s) (hr : Stops p r) : Stops p (s ++ r) := by
  cases s with
  | nil => exact hr
  | cons c s => exact hs

/-- What comes behind a text with something in it has no part in whether the run ends. -/
theorem Stops.append_of_ne_nil (hs : Stops p s) (ne : s ≠ []) (r : List Char) :
    Stops p (s ++ r) := by
  cases s with
  | nil => exact absurd rfl ne
  | cons c s => exact hs

/-- A run of a smaller class ends where one of a larger class does. -/
theorem Stops.mono {q : Char → Bool} (h : Stops q rest) (himp : ∀ c, p c = true → q c = true) :
    Stops p rest := fun c hc => by
  cases hp : p c with
  | false => rfl
  | true => exact absurd (himp c hp) (by rw [h c hc]; exact Bool.false_ne_true)

/-- In a text that has none of the class, a run of it ends at once. -/
theorem stops_of_all (h : ∀ c ∈ s, p c = false) : Stops p s := fun c hc =>
  h c (List.mem_of_mem_head? hc)

/-- What a scan leaves does not go on with what it took. -/
theorem stops_dropWhile (p : Char → Bool) (s : List Char) : Stops p (s.dropWhile p) :=
  fun c hc => by
    have hhead := List.head?_dropWhile_not p s
    rwa [Option.mem_def.1 hc] at hhead

/-- Where a run ends, a scan takes nothing. -/
theorem Stops.takeWhile (h : Stops p rest) : rest.takeWhile p = [] := by
  cases rest with
  | nil => rfl
  | cons c r => exact List.takeWhile_cons_of_neg (by rw [h c rfl]; exact Bool.false_ne_true)

theorem Stops.dropWhile (h : Stops p rest) : rest.dropWhile p = rest := by
  cases rest with
  | nil => rfl
  | cons c r => exact List.dropWhile_cons_of_neg (by rw [h c rfl]; exact Bool.false_ne_true)

/-- **A scan takes a run that ends, all of it**: the characters of the class and nothing behind
them. -/
theorem takeWhile_append (hs : ∀ c ∈ s, p c = true) (hr : Stops p rest) :
    (s ++ rest).takeWhile p = s := by
  rw [List.takeWhile_append_of_pos hs, hr.takeWhile, List.append_nil]

/-- And it leaves what comes behind the run. -/
theorem dropWhile_append (hs : ∀ c ∈ s, p c = true) (hr : Stops p rest) :
    (s ++ rest).dropWhile p = rest := by
  rw [List.dropWhile_append_of_pos hs, hr.dropWhile]

end TreeRules.Text
