import Mathlib.Data.List.Sort
import EscrowSigner.History
import EscrowSigner.Integrity.Chains

/-! JSON texts of flat dictionaries with sorted keys and no blanks, over texts without control
characters.  Such a text determines its dictionary. -/

namespace EscrowSigner.CanonicalJson

def quote : Char := Char.ofNat 34

def backslash : Char := Char.ofNat 92

def escape (c : Char) : List Char := if c = quote ∨ c = backslash then [backslash, c] else [c]

def textChars (s : String) : List Char := quote :: (s.toList.flatMap escape ++ [quote])

def intChars : Int → List Char
  | .ofNat n => Nat.toDigits 10 n
  | .negSucc n => '-' :: Nat.toDigits 10 (n + 1)

def scalarChars : Scalar → List Char
  | .null => ['n', 'u', 'l', 'l']
  | .int n => intChars n
  | .text s => textChars s

def entryChars (e : String × Scalar) : List Char := textChars e.1 ++ ':' :: scalarChars e.2

def closingBrace : Char := Char.ofNat 125

/-- The entries of a dictionary and its closing brace. -/
def membersChars : List (String × Scalar) → List Char
  | [] => [closingBrace]
  | e :: rest => entryChars e ++ restChars rest
where
  restChars : List (String × Scalar) → List Char
    | [] => [closingBrace]
    | e :: rest => ',' :: (entryChars e ++ restChars rest)

/-- The entries in the order of their keys. -/
def sorted (payload : List (String × Scalar)) : List (String × Scalar) :=
  payload.insertionSort fun e e' => e.1 ≤ e'.1

def dumps (payload : List (String × Scalar)) : Bytes :=
  encode (String.ofList (Char.ofNat 123 :: membersChars (sorted payload)))

/-! ### Texts -/

theorem escaped_inj {cs cs' rest rest' : List Char}
    (h : cs.flatMap escape ++ quote :: rest = cs'.flatMap escape ++ quote :: rest') :
    cs = cs' ∧ rest = rest' := by
  have hne : backslash ≠ quote := by decide
  induction cs generalizing cs' with
  | nil =>
    cases cs' with
    | nil => exact ⟨rfl, (List.cons.inj h).2⟩
    | cons c' cs' =>
      simp only [List.flatMap_nil, List.nil_append, List.flatMap_cons, escape] at h
      split at h
      · exact absurd (List.cons.inj h).1.symm hne
      · rename_i hplain
        exact absurd (List.cons.inj h).1.symm fun hc => hplain (.inl hc)
  | cons c cs ih =>
    cases cs' with
    | nil =>
      simp only [List.flatMap_nil, List.nil_append, List.flatMap_cons, escape] at h
      split at h
      · exact absurd (List.cons.inj h).1 hne
      · rename_i hplain
        exact absurd (List.cons.inj h).1 fun hc => hplain (.inl hc)
    | cons c' cs' =>
      have hhead : c = c' ∧ cs.flatMap escape ++ quote :: rest =
          cs'.flatMap escape ++ quote :: rest' := by
        simp only [List.flatMap_cons, List.append_assoc, escape] at h
        split at h
        · split at h
          · exact List.cons.inj (List.cons.inj h).2
          · rename_i hplain
            exact absurd (List.cons.inj h).1.symm fun hc => hplain (.inr hc)
        · rename_i hplain
          split at h
          · exact absurd (List.cons.inj h).1 fun hc => hplain (.inr hc)
          · exact List.cons.inj h
      obtain ⟨rfl, htail⟩ := hhead
      obtain ⟨rfl, heq⟩ := ih htail
      exact ⟨rfl, heq⟩

theorem textChars_inj {s s' : String} {rest rest' : List Char}
    (h : textChars s ++ rest = textChars s' ++ rest') : s = s' ∧ rest = rest' := by
  simp only [textChars, List.cons_append, List.append_assoc] at h
  obtain ⟨hs, hrest⟩ := escaped_inj (List.cons.inj h).2
  exact ⟨String.toList_inj.mp hs, hrest⟩

/-! ### Numbers -/

theorem intChars_injective : Function.Injective intChars := by
  intro n n' h
  have hminus : ∀ k : Nat, '-' ∉ Nat.toDigits 10 k := fun k hmem =>
    absurd (Nat.isDigit_of_mem_toDigits (by decide) (by decide) hmem) (by decide)
  have hdigits : ∀ {k k' : Nat}, Nat.toDigits 10 k = Nat.toDigits 10 k' → k = k' := by
    intro k k' hk
    rw [← Nat.ofDigitChars_ten_toDigits (n := k), hk, Nat.ofDigitChars_ten_toDigits]
  cases n with
  | ofNat k =>
    cases n' with
    | ofNat k' => exact congrArg Int.ofNat (hdigits h)
    | negSucc k' =>
      have h : Nat.toDigits 10 k = '-' :: Nat.toDigits 10 (k' + 1) := h
      exact absurd (h ▸ List.mem_cons_self) (hminus k)
  | negSucc k =>
    cases n' with
    | ofNat k' =>
      have h : '-' :: Nat.toDigits 10 (k + 1) = Nat.toDigits 10 k' := h
      exact absurd (h ▸ List.mem_cons_self) (hminus k')
    | negSucc k' => exact congrArg Int.negSucc (Nat.succ.inj (hdigits (List.cons.inj h).2))

/-- The characters of a number. -/
theorem mem_intChars {n : Int} {c : Char} (h : c ∈ intChars n) : c.isDigit = true ∨ c = '-' := by
  cases n with
  | ofNat k => exact .inl (Nat.isDigit_of_mem_toDigits (by decide) (by decide) h)
  | negSucc k =>
    rcases List.mem_cons.mp h with rfl | h
    · exact .inr rfl
    · exact .inl (Nat.isDigit_of_mem_toDigits (by decide) (by decide) h)

/-! ### Entries -/

/-- The characters behind the value of an entry. -/
def ends (c : Char) : Bool := c == ',' || c == closingBrace

/-- Words without a character that ends them. -/
theorem word_inj {cs cs' rest rest' : List Char} {d d' : Char} (hd : ends d = true)
    (hd' : ends d' = true) (hcs : ∀ c ∈ cs, ends c = false) (hcs' : ∀ c ∈ cs', ends c = false)
    (h : cs ++ d :: rest = cs' ++ d' :: rest') : cs = cs' ∧ d :: rest = d' :: rest' := by
  induction cs generalizing cs' with
  | nil =>
    cases cs' with
    | nil => exact ⟨rfl, h⟩
    | cons c' cs' =>
      have hc := hcs' c' List.mem_cons_self
      rw [← (List.cons.inj h).1, hd] at hc
      cases hc
  | cons c cs ih =>
    cases cs' with
    | nil =>
      have hc := hcs c List.mem_cons_self
      rw [(List.cons.inj h).1, hd'] at hc
      cases hc
    | cons c' cs' =>
      obtain ⟨rfl, htail⟩ := List.cons.inj h
      obtain ⟨rfl, heq⟩ := ih (fun c hc => hcs c (List.mem_cons_of_mem _ hc))
        (fun c hc => hcs' c (List.mem_cons_of_mem _ hc)) htail
      exact ⟨rfl, heq⟩

/-- The value of an entry that is no text is a word without quotes. -/
def Word (cs : List Char) : Prop := ∀ c ∈ cs, c ≠ quote ∧ ends c = false

theorem word_null : Word (scalarChars .null) := by
  intro c hc
  have hchars : scalarChars .null = ['n', 'u', 'l', 'l'] := rfl
  rw [hchars] at hc
  simp only [List.mem_cons, List.not_mem_nil, or_false] at hc
  rcases hc with rfl | rfl | rfl | rfl <;> decide

theorem word_int (n : Int) : Word (scalarChars (.int n)) := by
  intro c hc
  rcases mem_intChars hc with hdigit | rfl
  · constructor
    · rintro rfl
      exact absurd hdigit (by decide)
    · rw [ends, Bool.or_eq_false_iff, beq_eq_false_iff_ne, beq_eq_false_iff_ne]
      constructor <;>
      · rintro rfl
        exact absurd hdigit (by decide)
  · decide

theorem word_ne_text {cs rest rest' : List Char} {s : String} {d : Char} (hcs : Word cs)
    (hd : ends d = true) : cs ++ d :: rest ≠ textChars s ++ rest' := by
  intro h
  cases cs with
  | nil =>
    have hquote : d = quote := (List.cons.inj h).1
    rw [hquote] at hd
    exact absurd hd (by decide)
  | cons c cs => exact (hcs c List.mem_cons_self).1 (List.cons.inj h).1

theorem intChars_ne_null (n : Int) : intChars n ≠ scalarChars .null := by
  intro h
  have hmem : 'n' ∈ intChars n := h ▸ List.mem_cons_self
  rcases mem_intChars hmem with hdigit | hminus
  · exact absurd hdigit (by decide)
  · exact absurd hminus (by decide)

theorem scalarChars_inj {v v' : Scalar} {rest rest' : List Char} {d d' : Char}
    (hd : ends d = true) (hd' : ends d' = true)
    (h : scalarChars v ++ d :: rest = scalarChars v' ++ d' :: rest') :
    v = v' ∧ d :: rest = d' :: rest' := by
  have words : ∀ {cs cs' : List Char}, Word cs → Word cs' → cs ++ d :: rest = cs' ++ d' :: rest' →
      cs = cs' ∧ d :: rest = d' :: rest' := fun hw hw' =>
    word_inj hd hd' (fun c hc => (hw c hc).2) fun c hc => (hw' c hc).2
  cases v with
  | null =>
    cases v' with
    | null => exact ⟨rfl, (words word_null word_null h).2⟩
    | int n => exact absurd (words word_null (word_int n) h).1.symm (intChars_ne_null n)
    | text s => exact absurd h (word_ne_text word_null hd)
  | int n =>
    cases v' with
    | null => exact absurd (words (word_int n) word_null h).1 (intChars_ne_null n)
    | int n' =>
      obtain ⟨hint, hrest⟩ := words (word_int n) (word_int n') h
      exact ⟨congrArg Scalar.int (intChars_injective hint), hrest⟩
    | text s => exact absurd h (word_ne_text (word_int n) hd)
  | text s =>
    cases v' with
    | null => exact absurd h.symm (word_ne_text word_null hd')
    | int n => exact absurd h.symm (word_ne_text (word_int n) hd')
    | text s' =>
      obtain ⟨rfl, hrest⟩ := textChars_inj h
      exact ⟨rfl, hrest⟩

theorem entryChars_inj {e e' : String × Scalar} {rest rest' : List Char} {d d' : Char}
    (hd : ends d = true) (hd' : ends d' = true)
    (h : entryChars e ++ d :: rest = entryChars e' ++ d' :: rest') :
    e = e' ∧ d :: rest = d' :: rest' := by
  simp only [entryChars, List.append_assoc, List.cons_append] at h
  obtain ⟨hkey, hvalue⟩ := textChars_inj h
  obtain ⟨hscalar, hrest⟩ := scalarChars_inj hd hd' (List.cons.inj hvalue).2
  exact ⟨Prod.ext hkey hscalar, hrest⟩

theorem restChars_ends (es : List (String × Scalar)) :
    ∃ d rest, membersChars.restChars es = d :: rest ∧ ends d = true := by
  cases es with
  | nil => exact ⟨closingBrace, [], rfl, by decide⟩
  | cons e es => exact ⟨',', _, rfl, by decide⟩

theorem restChars_injective : Function.Injective membersChars.restChars := by
  intro es es' h
  induction es generalizing es' with
  | nil =>
    cases es' with
    | nil => rfl
    | cons e' es' => exact absurd (List.cons.inj h).1 (by decide)
  | cons e es ih =>
    cases es' with
    | nil => exact absurd (List.cons.inj h).1 (by decide)
    | cons e' es' =>
      obtain ⟨d, rest, hes, hd⟩ := restChars_ends es
      obtain ⟨d', rest', hes', hd'⟩ := restChars_ends es'
      have htail := (List.cons.inj h).2
      rw [hes, hes'] at htail
      obtain ⟨rfl, hrest⟩ := entryChars_inj hd hd' htail
      rw [ih (hes.trans (hrest.trans hes'.symm))]

theorem membersChars_injective : Function.Injective membersChars := by
  have hne : closingBrace ≠ quote := by decide
  intro es es' h
  cases es with
  | nil =>
    cases es' with
    | nil => rfl
    | cons e' es' => exact absurd (List.cons.inj h).1 hne
  | cons e es =>
    cases es' with
    | nil => exact absurd (List.cons.inj h).1.symm hne
    | cons e' es' => exact restChars_injective (congrArg (',' :: ·) h)

/-! ### Dictionaries -/

theorem dumps_opens (payload : List (String × Scalar)) : ∃ rest, dumps payload = brace :: rest := by
  unfold dumps
  rw [encode_ofList, List.flatMap_cons]
  exact ⟨_, rfl⟩

theorem sorted_perm (payload : List (String × Scalar)) : (sorted payload).Perm payload :=
  List.perm_insertionSort _ payload

/-- A text determines its dictionary, up to the order of the entries. -/
theorem dumps_injective {payload payload' : List (String × Scalar)}
    (h : dumps payload = dumps payload') : payload.Perm payload' := by
  have htext := String.ofList_injective (encode_injective h)
  have hsorted : sorted payload = sorted payload' :=
    membersChars_injective (List.cons.inj htext).2
  exact (sorted_perm payload).symm.trans (hsorted ▸ sorted_perm payload')

/-- The externals with these texts and a hash that returns its argument. -/
def externals : Externals := { Sample.unhashed with dumps := dumps }

/-- No hash of a row is the head of an empty chain, since it ends with a text. -/
theorem rowHash_fresh (head : String) (payload : List (String × Scalar)) :
    rowHash externals head payload ≠ genesis := by
  intro h
  have hgenesis : genesis = hexString [0] := by decide
  obtain ⟨rest, hrest⟩ := dumps_opens payload
  have hbytes : encode head ++ dumps payload = [0] := hexString_injective (h.trans hgenesis)
  have hmem : brace ∈ encode head ++ dumps payload :=
    List.mem_append.mpr (.inr (hrest ▸ List.mem_cons_self))
  rw [hbytes] at hmem
  exact absurd hmem (by decide)

theorem canonical_externals : Canonical externals where
  keccak _ _ h := h
  fresh := rowHash_fresh
  opens := dumps_opens
  dumps _ _ _ _ h := dumps_injective h

end EscrowSigner.CanonicalJson
