/-!
Blank characters and the trimming of text.

A character is blank when it has the Unicode property `White_Space`. The ASCII part of that set is
used where a format names only ASCII blanks.
-/

namespace StyleAudit.Text

/-- Blank in the sense of the Unicode property `White_Space`. -/
def isBlank (c : Char) : Bool :=
  let n := c.toNat
  (9 ≤ n && n ≤ 13) || n == 0x20 || n == 0x85 || n == 0xA0 || n == 0x1680 ||
    (0x2000 ≤ n && n ≤ 0x200A) || n == 0x2028 || n == 0x2029 || n == 0x202F ||
    n == 0x205F || n == 0x3000

/-- Blank among the ASCII characters: space, tab, line feed, form feed, carriage return. -/
def isAsciiBlank (c : Char) : Bool :=
  c == ' ' || c == '\t' || c == '\n' || c == '\x0c' || c == '\r'

/-- Splits off the longest tail whose characters all satisfy `p`. -/
def splitTail (p : Char → Bool) : List Char → List Char × List Char
  | [] => ([], [])
  | c :: cs =>
    match splitTail p cs with
    | ([], tail) => if p c then ([], c :: tail) else ([c], tail)
    | (kept, tail) => (c :: kept, tail)

/-- Splits off the longest head whose characters all satisfy `p`. -/
def splitHead (p : Char → Bool) : List Char → List Char × List Char
  | [] => ([], [])
  | c :: cs =>
    if p c then
      let (head, rest) := splitHead p cs
      (c :: head, rest)
    else ([], c :: cs)

def trimLeft (cs : List Char) : List Char :=
  cs.dropWhile isBlank

def trimRight (cs : List Char) : List Char :=
  (splitTail isBlank cs).1

/-- Removes the blanks on both sides. -/
def trim (cs : List Char) : List Char :=
  trimRight (trimLeft cs)

/-- Equality up to the case of ASCII letters. -/
def eqIgnoreCase (a b : List Char) : Bool :=
  a.map Char.toLower == b.map Char.toLower

theorem splitHead_append (p : Char → Bool) (cs : List Char) :
    (splitHead p cs).1 ++ (splitHead p cs).2 = cs := by
  induction cs with
  | nil => rfl
  | cons c cs ih => by_cases h : p c <;> simp [splitHead, h, ih]

theorem splitTail_append (p : Char → Bool) (cs : List Char) :
    (splitTail p cs).1 ++ (splitTail p cs).2 = cs := by
  induction cs with
  | nil => rfl
  | cons c cs ih =>
    rw [splitTail]
    split
    · rename_i h
      rw [h] at ih
      by_cases hc : p c <;> simp_all
    · rename_i h
      rw [h] at ih
      simp_all

/-- What is split off a head is the longest one. -/
theorem splitHead_eq_iff {p : Char → Bool} {cs head rest : List Char} :
    splitHead p cs = (head, rest) ↔
      head ++ rest = cs ∧ (∀ c ∈ head, p c) ∧ ∀ c ∈ rest.head?, ¬p c := by
  induction cs generalizing head with
  | nil =>
    rw [splitHead, Prod.mk.injEq, List.append_eq_nil_iff]
    constructor
    · rintro ⟨rfl, rfl⟩
      simp
    · rintro ⟨⟨rfl, rfl⟩, -⟩
      exact ⟨rfl, rfl⟩
  | cons c cs ih =>
    rw [splitHead]
    by_cases hc : p c
    · rw [if_pos hc, Prod.mk.injEq]
      constructor
      · rintro ⟨rfl, rfl⟩
        obtain ⟨happ, hall, hhead⟩ := ih.1 rfl
        exact ⟨by rw [List.cons_append, happ], by simpa [hc] using hall, hhead⟩
      · rintro ⟨happ, hall, hhead⟩
        cases head with
        | nil =>
          rw [List.nil_append] at happ
          subst happ
          exact absurd hc (hhead c rfl)
        | cons d ds =>
          obtain ⟨rfl, htail⟩ := List.cons.inj happ
          have h := ih.2 ⟨htail, fun e he => hall e (by simp [he]), hhead⟩
          rw [h]
          exact ⟨rfl, rfl⟩
    · rw [if_neg hc, Prod.mk.injEq]
      constructor
      · rintro ⟨rfl, rfl⟩
        simpa using hc
      · rintro ⟨happ, hall, -⟩
        cases head with
        | nil => exact ⟨rfl, happ.symm⟩
        | cons d ds =>
          obtain ⟨rfl, -⟩ := List.cons.inj happ
          exact absurd (hall d (by simp)) hc

theorem splitTail_of_all {p : Char → Bool} {tail : List Char} (h : ∀ c ∈ tail, p c) :
    splitTail p tail = ([], tail) := by
  induction tail with
  | nil => rfl
  | cons c cs ih =>
    rw [splitTail, ih fun d hd => h d (by simp [hd])]
    exact if_pos (h c (by simp))

/-- What is split off at the end is the longest tail. -/
theorem splitTail_eq_iff {p : Char → Bool} {cs kept tail : List Char} :
    splitTail p cs = (kept, tail) ↔
      kept ++ tail = cs ∧ (∀ c ∈ tail, p c) ∧ ∀ c ∈ kept.getLast?, ¬p c := by
  constructor
  · intro h
    induction cs generalizing kept tail with
    | nil =>
      obtain ⟨rfl, rfl⟩ := Prod.mk.inj h
      simp
    | cons c cs ih =>
      rw [splitTail] at h
      split at h
      · rename_i back hback
        obtain ⟨rfl, hall, -⟩ := ih hback
        split at h
        · obtain ⟨rfl, rfl⟩ := Prod.mk.inj h
          simp_all
        · obtain ⟨rfl, rfl⟩ := Prod.mk.inj h
          simp_all
      · rename_i front back hne hback
        obtain ⟨rfl, rfl⟩ := Prod.mk.inj h
        obtain ⟨happ, hall, hlast⟩ := ih hback
        refine ⟨by rw [List.cons_append, happ], hall, ?_⟩
        rwa [List.getLast?_cons_of_ne_nil fun h => hne h]
  · rintro ⟨rfl, hall, hlast⟩
    induction kept with
    | nil => exact splitTail_of_all hall
    | cons c cs ih =>
      cases cs with
      | nil =>
        rw [List.cons_append, splitTail, List.nil_append, splitTail_of_all hall]
        exact if_neg (hlast c rfl)
      | cons d ds =>
        rw [List.cons_append, splitTail, ih (by rwa [List.getLast?_cons_cons] at hlast)]

end StyleAudit.Text
