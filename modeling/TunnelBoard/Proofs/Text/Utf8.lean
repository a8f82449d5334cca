import TunnelBoard.Text.Utf8
/-
  What it means to read bytes as UTF-8, and that the decoder does it.

  The specification speaks of the bytes of characters only, and those are the library's
  (`String.utf8EncodeChar`).  Where the bytes of a character stand, it is read (`Decodes.char`).
  Where none do, one U+FFFD stands for the longest part that may begin a character, or for a single
  byte if that cannot begin one (`Unreadable`).  So every sequence of bytes stands for one text, and
  the decoder finds it (`decodes_iff`).

  The decoder works with tables instead: what a first byte announces, and between which bounds the
  next one has to be.  `Completes` says which bytes and which character a state of the decoder waits
  for.  The arithmetic is in two lemmas: every character has a first byte that announces the rest of
  it (`encode_cases`), and whatever completes an announced character is its encoding
  (`encode_of_completes`).  From there on bytes are followed without looking at their values
  (`follow`).

  That the text is unique needs one more thing: where a part cannot be read, it is known how long it
  is.  Two such parts at the same place are equally long, since the shorter one could go on otherwise
  (`Unreadable.length_le`).  With that the specification is followed by induction on it, and the
  decoder's text is the only one.
-/

namespace TunnelBoard

/-! ## The specification -/

/-- Whether bytes are the first ones of a character, or all of them. -/
def Begins (bytes : List UInt8) : Prop := ∃ c, bytes <+: String.utf8EncodeChar c

/-- A part that cannot be read as a character, in front of the rest of some bytes. -/
structure Unreadable (part rest : List UInt8) : Prop where
  ne_nil : part ≠ []
  /-- No character stands here. -/
  none : ∀ c, ¬ String.utf8EncodeChar c <+: part ++ rest
  /-- One might begin here, or the part is a single byte. -/
  begins : Begins part ∨ part.length = 1
  /-- It might not with one byte more. -/
  maximal : ∀ b more, rest = b :: more → ¬ Begins (part ++ [b])

/-- The text that bytes stand for, with U+FFFD once for each part that cannot be read. -/
inductive Decodes : List UInt8 → Text → Prop where
  | nil : Decodes [] []
  | char (c : Char) {rest : List UInt8} {text : Text} (after : Decodes rest text) :
      Decodes (String.utf8EncodeChar c ++ rest) (c :: text)
  | replaced {part rest : List UInt8} {text : Text} (bad : Unreadable part rest)
      (after : Decodes rest text) : Decodes (part ++ rest) ('\ufffd' :: text)

namespace Utf8

/-! ## States of the decoder -/

/-- Whether the byte may come next. -/
def Pending.Takes (p : Pending) (b : UInt8) : Prop := p.low ≤ b.toNat ∧ b.toNat ≤ p.high

/-- The bits with those of the next byte. -/
def Pending.grow (p : Pending) (b : UInt8) : Nat := p.bits * 64 + (b.toNat - 0x80)

/-- What is pending after the next byte, if that is not the last one. -/
def Pending.next (p : Pending) (b : UInt8) : Pending := ⟨p.grow b, p.missing - 1, 0x80, 0xBF⟩

theorem Pending.missing_next (p : Pending) (b : UInt8) : (p.next b).missing = p.missing - 1 := rfl

/-- The bytes that complete a pending character, and the character. -/
inductive Completes : Pending → List UInt8 → Char → Prop where
  | last {p : Pending} {b : UInt8} (one : p.missing ≤ 1) (takes : p.Takes b) :
      Completes p [b] (Char.ofNat (p.grow b))
  | more {p : Pending} {b : UInt8} {bytes : List UInt8} {c : Char} (many : ¬ p.missing ≤ 1)
      (takes : p.Takes b) (rest : Completes (p.next b) bytes c) : Completes p (b :: bytes) c

/-- Whether a pending character may go on like this. -/
def Opens (p : Pending) (bytes : List UInt8) : Prop := ∃ more c, Completes p (bytes ++ more) c

variable {p : Pending} {b : UInt8} {bytes : List UInt8} {c : Char}

/-- A pending character misses a byte at least. -/
theorem Completes.ne_nil (h : Completes p bytes c) : bytes ≠ [] := by
  cases h with
  | last | more => exact List.cons_ne_nil _ _

/-! ## The bytes of a character

A first byte announces how many are to follow and which may come next, and each further byte brings
six bits.  So there is one lemma for each length of a character, and what completes an announced
character is its encoding. -/

theorem toNat_ofNat_of_valid {n : Nat} (h : n.isValidChar) : (Char.ofNat n).toNat = n := by
  rw [Char.ofNat, dif_pos h]
  rfl

theorem toNat_ofNat_of_lt {n : Nat} (h : n < 256) : (UInt8.ofNat n).toNat = n := by
  rw [UInt8.toNat_ofNat']
  exact Nat.mod_eq_of_lt h

/-- The encoding of a character by its number. -/
theorem encode_ofNat {n : Nat} (h : n.isValidChar) : String.utf8EncodeChar (Char.ofNat n) =
    if n ≤ 0x7F then [UInt8.ofNat n]
    else if n ≤ 0x7FF then [UInt8.ofNat (n / 64 % 32 + 0xC0), UInt8.ofNat (n % 64 + 0x80)]
    else if n ≤ 0xFFFF then
      [UInt8.ofNat (n / 4096 % 16 + 0xE0), UInt8.ofNat (n / 64 % 64 + 0x80),
        UInt8.ofNat (n % 64 + 0x80)]
    else
      [UInt8.ofNat (n / 262144 % 8 + 0xF0), UInt8.ofNat (n / 4096 % 64 + 0x80),
        UInt8.ofNat (n / 64 % 64 + 0x80), UInt8.ofNat (n % 64 + 0x80)] := by
  have hval : (Char.ofNat n).val.toNat = n := toNat_ofNat_of_valid h
  unfold String.utf8EncodeChar
  rw [hval]

/-- The encoding of a character with two bytes, by its upper and lower bits. -/
theorem encode_two {x y : Nat} (hlow : 2 ≤ x) (hx : x < 32) (hy : y < 64) :
    String.utf8EncodeChar (Char.ofNat (x * 64 + y)) = [UInt8.ofNat (x + 0xC0), UInt8.ofNat (y + 0x80)] := by
  have hfirst : (x * 64 + y) / 64 % 32 = x := by omega
  have hlast : (x * 64 + y) % 64 = y := by omega
  rw [encode_ofNat (Or.inl (by omega)), if_neg (by omega), if_pos (by omega), hfirst, hlast]

/-- The encoding of a character with three bytes, by its upper, middle and lower bits. -/
theorem encode_three {x y z : Nat} (hvalid : ((x * 64 + y) * 64 + z).isValidChar)
    (hlow : 0x7FF < (x * 64 + y) * 64 + z) (hx : x < 16) (hy : y < 64) (hz : z < 64) :
    String.utf8EncodeChar (Char.ofNat ((x * 64 + y) * 64 + z)) =
      [UInt8.ofNat (x + 0xE0), UInt8.ofNat (y + 0x80), UInt8.ofNat (z + 0x80)] := by
  have hfirst : ((x * 64 + y) * 64 + z) / 4096 % 16 = x := by omega
  have hsecond : ((x * 64 + y) * 64 + z) / 64 % 64 = y := by omega
  have hlast : ((x * 64 + y) * 64 + z) % 64 = z := by omega
  rw [encode_ofNat hvalid, if_neg (by omega), if_neg (by omega), if_pos (by omega), hfirst, hsecond,
    hlast]

/-- The encoding of a character with four bytes, by its bits from the upper to the lower ones. -/
theorem encode_four {x y z w : Nat} (hvalid : (((x * 64 + y) * 64 + z) * 64 + w).isValidChar)
    (hlow : 0xFFFF < ((x * 64 + y) * 64 + z) * 64 + w) (hx : x < 8) (hy : y < 64) (hz : z < 64)
    (hw : w < 64) :
    String.utf8EncodeChar (Char.ofNat (((x * 64 + y) * 64 + z) * 64 + w)) =
      [UInt8.ofNat (x + 0xF0), UInt8.ofNat (y + 0x80), UInt8.ofNat (z + 0x80),
        UInt8.ofNat (w + 0x80)] := by
  have hfirst : (((x * 64 + y) * 64 + z) * 64 + w) / 262144 % 8 = x := by omega
  have hsecond : (((x * 64 + y) * 64 + z) * 64 + w) / 4096 % 64 = y := by omega
  have hthird : (((x * 64 + y) * 64 + z) * 64 + w) / 64 % 64 = z := by omega
  have hlast : (((x * 64 + y) * 64 + z) * 64 + w) % 64 = w := by omega
  rw [encode_ofNat hvalid, if_neg (by omega), if_neg (by omega), if_neg (by omega), hfirst, hsecond,
    hthird, hlast]

/-- A byte is a base and what it is over it. -/
theorem ofNat_sub_add {low : Nat} (h : low ≤ b.toNat) : UInt8.ofNat (b.toNat - low + low) = b := by
  rw [Nat.sub_add_cancel h]
  exact UInt8.ofNat_toNat

/-- A first byte that is a character. -/
theorem lead_of_ascii {n : Nat} (h : n < 0x80) : lead n = .char (Char.ofNat n) := if_pos h

/-- What is pending after the first byte of two. -/
theorem lead_of_two {n : Nat} (h : 0xC2 ≤ n) (h' : n < 0xE0) : ∃ p, lead n = .more p ∧
    p.missing = 1 ∧ p.bits = n - 0xC0 ∧ p.low = 0x80 ∧ p.high = 0xBF := by
  refine ⟨⟨n - 0xC0, 1, 0x80, 0xBF⟩,
    ?_, rfl, rfl, rfl, rfl⟩
  rw [lead, if_neg (by omega), if_neg (by omega), if_pos h']

/-- What is pending after the first byte of three: the second byte keeps out overlong forms and
    surrogates. -/
theorem lead_of_three {n : Nat} (h : 0xE0 ≤ n) (h' : n < 0xF0) : ∃ p, lead n = .more p ∧
    p.missing = 2 ∧ p.bits = n - 0xE0 ∧
    (p.low = if n = 0xE0 then 0xA0 else 0x80) ∧ p.high = if n = 0xED then 0x9F else 0xBF := by
  refine ⟨⟨n - 0xE0, 2, if n = 0xE0 then 0xA0 else 0x80, if n = 0xED then 0x9F else 0xBF⟩,
    ?_, rfl, rfl, rfl, rfl⟩
  rw [lead, if_neg (by omega), if_neg (by omega), if_neg (by omega), if_pos h']

/-- What is pending after the first byte of four: the second byte keeps out overlong forms and what
    lies past the last character. -/
theorem lead_of_four {n : Nat} (h : 0xF0 ≤ n) (h' : n < 0xF5) : ∃ p, lead n = .more p ∧
    p.missing = 3 ∧ p.bits = n - 0xF0 ∧
    (p.low = if n = 0xF0 then 0x90 else 0x80) ∧ p.high = if n = 0xF4 then 0x8F else 0xBF := by
  refine ⟨⟨n - 0xF0, 3, if n = 0xF0 then 0x90 else 0x80, if n = 0xF4 then 0x8F else 0xBF⟩,
    ?_, rfl, rfl, rfl, rfl⟩
  rw [lead, if_neg (by omega), if_neg (by omega), if_neg (by omega), if_neg (by omega), if_pos h']

/-- A byte that begins no character: one that carries on, or one that announces too much or too
    little. -/
theorem lead_of_stray {n : Nat} (h : 0x80 ≤ n ∧ n < 0xC2 ∨ 0xF5 ≤ n) : lead n = .bad := by
  rcases h with ⟨hle, hlt⟩ | hle
  · rw [lead, if_neg (by omega), if_pos hlt]
  · rw [lead, if_neg (by omega), if_neg (by omega), if_neg (by omega), if_neg (by omega),
      if_neg (by omega)]

/-- A byte that carries on a character brings six bits. -/
theorem takes_ofNat {n : Nat} (hlow : p.low ≤ n % 64 + 0x80) (hhigh : n % 64 + 0x80 ≤ p.high) :
    p.Takes (UInt8.ofNat (n % 64 + 0x80)) := by
  unfold Pending.Takes
  rw [toNat_ofNat_of_lt (by omega)]
  exact ⟨hlow, hhigh⟩

/-- The six bits are put behind those that are there. -/
theorem grow_ofNat (p : Pending) (n : Nat) :
    p.grow (UInt8.ofNat (n % 64 + 0x80)) = p.bits * 64 + n % 64 := by
  unfold Pending.grow
  rw [toNat_ofNat_of_lt (by omega)]
  omega

/-- The last byte of a character, by its number. -/
theorem completes_one {n : Nat} (hmissing : p.missing = 1) (hbits : p.bits = n / 64)
    (hlow : p.low ≤ n % 64 + 0x80) (hhigh : n % 64 + 0x80 ≤ p.high) :
    Completes p [UInt8.ofNat (n % 64 + 0x80)] (Char.ofNat n) := by
  have hgrow : p.grow (UInt8.ofNat (n % 64 + 0x80)) = n := by
    rw [grow_ofNat, hbits]
    omega
  have hlast := Completes.last (Nat.le_of_eq hmissing) (takes_ofNat hlow hhigh)
  rwa [hgrow] at hlast

/-- The last two bytes of a character, by its number. -/
theorem completes_two {n : Nat} (hmissing : p.missing = 2) (hbits : p.bits = n / 4096)
    (hlow : p.low ≤ n / 64 % 64 + 0x80) (hhigh : n / 64 % 64 + 0x80 ≤ p.high) :
    Completes p [UInt8.ofNat (n / 64 % 64 + 0x80), UInt8.ofNat (n % 64 + 0x80)] (Char.ofNat n) := by
  refine Completes.more (by omega) (takes_ofNat hlow hhigh) (completes_one ?_ ?_ ?_ ?_)
  · rw [Pending.missing_next]
    omega
  · show p.grow _ = n / 64
    rw [grow_ofNat, hbits]
    omega
  · show 0x80 ≤ _
    omega
  · show _ ≤ 0xBF
    omega

/-- The last three bytes of a character, by its number. -/
theorem completes_three {n : Nat} (hmissing : p.missing = 3) (hbits : p.bits = n / 262144)
    (hlow : p.low ≤ n / 4096 % 64 + 0x80) (hhigh : n / 4096 % 64 + 0x80 ≤ p.high) :
    Completes p [UInt8.ofNat (n / 4096 % 64 + 0x80), UInt8.ofNat (n / 64 % 64 + 0x80),
      UInt8.ofNat (n % 64 + 0x80)] (Char.ofNat n) := by
  refine Completes.more (by omega) (takes_ofNat hlow hhigh) (completes_two ?_ ?_ ?_ ?_)
  · rw [Pending.missing_next]
    omega
  · show p.grow _ = n / 4096
    rw [grow_ofNat, hbits]
    omega
  · show 0x80 ≤ _
    omega
  · show _ ≤ 0xBF
    omega

/-- **Every character has a first byte that announces the rest of it.** -/
theorem encode_cases (c : Char) : ∃ b bytes, String.utf8EncodeChar c = b :: bytes ∧
    ((lead b.toNat = .char c ∧ bytes = []) ∨
      ∃ p, lead b.toNat = .more p ∧ Completes p bytes c) := by
  obtain ⟨n, hvalid, rfl⟩ : ∃ n, n.isValidChar ∧ Char.ofNat n = c :=
    ⟨c.toNat, c.valid, Char.ofNat_toNat c⟩
  -- the gap of the surrogates and the last character give the bounds on the second byte
  have hgap : n < 0xD800 ∨ 0xDFFF < n ∧ n < 0x110000 := hvalid
  rw [encode_ofNat hvalid]
  -- by the number of bytes, one to four
  split
  · refine ⟨_, _, rfl, Or.inl ⟨?_, rfl⟩⟩
    rw [toNat_ofNat_of_lt (by omega)]
    exact lead_of_ascii (by omega)
  · split
    · obtain ⟨p, hlead, hmissing, hbits, hlow, hhigh⟩ :=
        @lead_of_two (n / 64 % 32 + 0xC0) (by omega) (by omega)
      refine ⟨_, _, rfl, Or.inr ⟨p, ?_, completes_one hmissing ?_ ?_ ?_⟩⟩
      · rwa [toNat_ofNat_of_lt (by omega)]
      all_goals omega
    · split
      · obtain ⟨p, hlead, hmissing, hbits, hlow, hhigh⟩ :=
          @lead_of_three (n / 4096 % 16 + 0xE0) (by omega) (by omega)
        refine ⟨_, _, rfl, Or.inr ⟨p, ?_, completes_two hmissing ?_ ?_ ?_⟩⟩
        · rwa [toNat_ofNat_of_lt (by omega)]
        all_goals
          split at hlow <;> split at hhigh <;> omega
      · obtain ⟨p, hlead, hmissing, hbits, hlow, hhigh⟩ :=
          @lead_of_four (n / 262144 % 8 + 0xF0) (by omega) (by omega)
        refine ⟨_, _, rfl, Or.inr ⟨p, ?_, completes_three hmissing ?_ ?_ ?_⟩⟩
        · rwa [toNat_ofNat_of_lt (by omega)]
        all_goals
          split at hlow <;> split at hhigh <;> omega

/-- What completes a character that misses one byte. -/
theorem Completes.inv_last (h : Completes p bytes c) (hone : p.missing ≤ 1) :
    ∃ b, bytes = [b] ∧ p.Takes b ∧ c = Char.ofNat (p.grow b) := by
  cases h with
  | last _ takes => exact ⟨_, rfl, takes, rfl⟩
  | more many => exact absurd hone many

/-- What completes a character that misses more than one. -/
theorem Completes.inv_more (h : Completes p bytes c) (hmany : ¬ p.missing ≤ 1) :
    ∃ b rest, bytes = b :: rest ∧ p.Takes b ∧ Completes (p.next b) rest c := by
  cases h with
  | last one => exact absurd one hmany
  | more _ takes rest => exact ⟨_, _, rfl, takes, rest⟩

/-- The first bytes that announce others. -/
theorem bounds_of_more {n : Nat} (h : lead n = .more p) :
    (0xC2 ≤ n ∧ n < 0xE0) ∨ (0xE0 ≤ n ∧ n < 0xF0) ∨ (0xF0 ≤ n ∧ n < 0xF5) := by
  by_cases hascii : n < 0x80
  · rw [lead_of_ascii hascii] at h
    exact nomatch h
  · by_cases hstray : n < 0xC2 ∨ 0xF5 ≤ n
    · rw [lead_of_stray (by omega)] at h
      exact nomatch h
    · omega

/-- The first bytes that are characters. -/
theorem bounds_of_char {n : Nat} (h : lead n = .char c) : n < 0x80 := by
  have hcases : n < 0x80 ∨ (0x80 ≤ n ∧ n < 0xC2 ∨ 0xF5 ≤ n) ∨ (0xC2 ≤ n ∧ n < 0xE0) ∨
      (0xE0 ≤ n ∧ n < 0xF0) ∨ (0xF0 ≤ n ∧ n < 0xF5) := by omega
  rcases hcases with hascii | hstray | ⟨hle, hlt⟩ | ⟨hle, hlt⟩ | ⟨hle, hlt⟩
  · exact hascii
  · rw [lead_of_stray hstray] at h
    exact nomatch h
  · obtain ⟨p, hmore, _⟩ := lead_of_two hle hlt
    exact nomatch hmore.symm.trans h
  · obtain ⟨p, hmore, _⟩ := lead_of_three hle hlt
    exact nomatch hmore.symm.trans h
  · obtain ⟨p, hmore, _⟩ := lead_of_four hle hlt
    exact nomatch hmore.symm.trans h

/-- A byte that is a character is its encoding. -/
theorem encode_of_char (h : lead b.toNat = .char c) : String.utf8EncodeChar c = [b] := by
  have hascii := bounds_of_char h
  rw [lead_of_ascii hascii] at h
  have hc : Char.ofNat b.toNat = c := Lead.char.inj h
  rw [← hc, encode_ofNat (Or.inl (by omega)), if_pos (by omega), UInt8.ofNat_toNat]

/-- **Whatever completes an announced character is its encoding.** -/
theorem encode_of_completes (hlead : lead b.toNat = .more p) (h : Completes p bytes c) :
    String.utf8EncodeChar c = b :: bytes := by
  -- by the number of bytes, two to four
  obtain ⟨hle, hlt⟩ | ⟨hle, hlt⟩ | ⟨hle, hlt⟩ := bounds_of_more hlead
  · obtain ⟨q, hlead', hmissing, hbits, hlow, hhigh⟩ := lead_of_two hle hlt
    obtain rfl : p = q := Lead.more.inj (hlead.symm.trans hlead')
    obtain ⟨b₁, rfl, ⟨hlow₁, hhigh₁⟩, hc⟩ := h.inv_last (by omega)
    unfold Pending.grow at hc
    rw [hc, hbits, encode_two (by omega) (by omega) (by omega), ofNat_sub_add (by omega),
      ofNat_sub_add (by omega)]
  · obtain ⟨q, hlead', hmissing, hbits, hlow, hhigh⟩ := lead_of_three hle hlt
    obtain rfl : p = q := Lead.more.inj (hlead.symm.trans hlead')
    obtain ⟨b₁, _, rfl, ⟨hlow₁, hhigh₁⟩, h⟩ := h.inv_more (by omega)
    obtain ⟨b₂, rfl, ⟨hlow₂, hhigh₂⟩, hc⟩ := h.inv_last (by rw [Pending.missing_next]; omega)
    unfold Pending.next Pending.grow at hc
    dsimp only [Pending.next] at hlow₂ hhigh₂ hc
    rw [hbits] at hc
    -- the bounds on the second byte make the number one of three bytes, and no surrogate
    split at hlow <;> split at hhigh <;>
      rw [hc, encode_three (by unfold Nat.isValidChar; omega) (by omega) (by omega) (by omega) (by omega),
        ofNat_sub_add (by omega), ofNat_sub_add (by omega), ofNat_sub_add (by omega)]
  · obtain ⟨q, hlead', hmissing, hbits, hlow, hhigh⟩ := lead_of_four hle hlt
    obtain rfl : p = q := Lead.more.inj (hlead.symm.trans hlead')
    obtain ⟨b₁, _, rfl, ⟨hlow₁, hhigh₁⟩, h⟩ := h.inv_more (by omega)
    obtain ⟨b₂, _, rfl, ⟨hlow₂, hhigh₂⟩, h⟩ := h.inv_more (by rw [Pending.missing_next]; omega)
    obtain ⟨b₃, rfl, ⟨hlow₃, hhigh₃⟩, hc⟩ := h.inv_last (by rw [Pending.missing_next, Pending.missing_next]; omega)
    unfold Pending.next Pending.grow at hc
    dsimp only [Pending.next, Pending.grow] at hlow₂ hhigh₂ hlow₃ hhigh₃ hc
    rw [hbits] at hc
    split at hlow <;> split at hhigh <;>
      rw [hc, encode_four (by unfold Nat.isValidChar; omega) (by omega) (by omega) (by omega) (by omega)
          (by omega), ofNat_sub_add (by omega), ofNat_sub_add (by omega), ofNat_sub_add (by omega),
        ofNat_sub_add (by omega)]

/-! ## Beginnings -/

/-- Whether the next byte can be chosen: no announced character leads nowhere. -/
def Pending.Good (p : Pending) : Prop := p.low ≤ p.high ∧ p.high < 256

theorem Pending.good_next (p : Pending) (b : UInt8) : (p.next b).Good := by
  refine ⟨?_, ?_⟩
  · show 0x80 ≤ 0xBF
    omega
  · show 0xBF < 256
    omega

/-- A first byte announces a character that can be completed. -/
theorem good_of_lead {n : Nat} (h : lead n = .more p) : p.Good := by
  unfold Pending.Good
  obtain ⟨hle, hlt⟩ | ⟨hle, hlt⟩ | ⟨hle, hlt⟩ := bounds_of_more h
  · obtain ⟨q, hlead, _, _, hlow, hhigh⟩ := lead_of_two hle hlt
    obtain rfl : p = q := Lead.more.inj (h.symm.trans hlead)
    omega
  · obtain ⟨q, hlead, _, _, hlow, hhigh⟩ := lead_of_three hle hlt
    obtain rfl : p = q := Lead.more.inj (h.symm.trans hlead)
    split at hlow <;> split at hhigh <;> omega
  · obtain ⟨q, hlead, _, _, hlow, hhigh⟩ := lead_of_four hle hlt
    obtain rfl : p = q := Lead.more.inj (h.symm.trans hlead)
    split at hlow <;> split at hhigh <;> omega

/-- The lowest byte that may come next is taken. -/
theorem Pending.Good.takes (h : p.Good) : p.Takes (UInt8.ofNat p.low) := by
  unfold Pending.Takes
  rw [toNat_ofNat_of_lt (Nat.lt_of_le_of_lt h.1 h.2)]
  exact ⟨Nat.le_refl _, h.1⟩

/-- What is good can be completed. -/
theorem opens_nil (h : p.Good) : Opens p [] := by
  induction hmissing : p.missing generalizing p with
  | zero => exact ⟨_, _, Completes.last (by omega) h.takes⟩
  -- the lowest byte may come next each time, for as many bytes as are missing
  | succ k ih =>
    by_cases hone : p.missing ≤ 1
    · exact ⟨_, _, Completes.last hone h.takes⟩
    · have hnext : (p.next (UInt8.ofNat p.low)).missing = k := by
        show p.missing - 1 = k
        omega
      obtain ⟨more, c, hrest⟩ := ih (p.good_next _) hnext
      exact ⟨_, c, Completes.more hone h.takes hrest⟩

/-- What completes a character begins with a byte that may come next. -/
theorem Completes.takes (h : Completes p (b :: bytes) c) : p.Takes b := by
  cases h with
  | last _ takes => exact takes
  | more _ takes => exact takes

theorem Opens.takes (h : Opens p (b :: bytes)) : p.Takes b := by
  obtain ⟨more, c, h⟩ := h
  exact Completes.takes h

/-- Where more than one byte is missing, a byte that may come next is no obstacle. -/
theorem opens_cons (hmany : ¬ p.missing ≤ 1) (takes : p.Takes b) :
    Opens p (b :: bytes) ↔ Opens (p.next b) bytes := by
  refine ⟨?_, ?_⟩
  · rintro ⟨more, c, h⟩
    obtain ⟨_, _, heq, _, h⟩ := h.inv_more hmany
    obtain ⟨rfl, rfl⟩ := List.cons.inj heq
    exact ⟨more, c, h⟩
  · rintro ⟨more, c, h⟩
    exact ⟨more, c, Completes.more hmany takes h⟩

/-- What bytes begin a character, by the first one. -/
theorem begins_cons : Begins (b :: bytes) ↔
    (∃ c, lead b.toNat = .char c ∧ bytes = []) ∨ ∃ p, lead b.toNat = .more p ∧ Opens p bytes := by
  refine ⟨?_, ?_⟩
  · rintro ⟨c, more, hmore⟩
    obtain ⟨b', rest, hencode, hcases⟩ := encode_cases c
    obtain ⟨rfl, rfl⟩ := List.cons.inj (hmore.trans hencode)
    obtain ⟨hlead, hnil⟩ | ⟨p, hlead, h⟩ := hcases
    · exact Or.inl ⟨c, hlead, (List.append_eq_nil_iff.1 hnil).1⟩
    · exact Or.inr ⟨p, hlead, more, c, h⟩
  · rintro (⟨c, hlead, rfl⟩ | ⟨p, hlead, more, c, h⟩)
    · exact ⟨c, [], (encode_of_char hlead).symm⟩
    · refine ⟨c, more, ?_⟩
      rw [encode_of_completes hlead h]
      rfl

/-! ## Following the bytes

A pending character is followed byte by byte: it gets a byte that it misses, or the bytes end, or the
next one is refused.  In the last two cases it breaks off there. -/

/-- Bytes that a pending character breaks off after, and the rest. -/
structure BreaksOff (p : Pending) (part rest : List UInt8) : Prop where
  opens : Opens p part
  ends : ∀ b more, rest = b :: more → ¬ Opens p (part ++ [b])
  never : ∀ bytes c, Completes p bytes c → ¬ bytes <+: part ++ rest

/-- A character breaks off where the bytes end. -/
theorem BreaksOff.of_end (h : p.Good) : BreaksOff p [] [] where
  opens := opens_nil h
  ends := by
    rintro b more hcons
    exact nomatch hcons
  never := by
    rintro bytes c hcompletes hle
    exact hcompletes.ne_nil (List.prefix_nil.1 hle)

/-- A character breaks off in front of a byte that cannot come next. -/
theorem BreaksOff.of_refused (h : p.Good) (hrefused : ¬ p.Takes b) : BreaksOff p [] (b :: bytes) where
  opens := opens_nil h
  ends := by
    rintro _ more hcons hopens
    obtain ⟨rfl, rfl⟩ := List.cons.inj hcons
    exact hrefused hopens.takes
  never := by
    rintro cs c hcompletes ⟨more, hmore⟩
    cases cs with
    | nil => exact hcompletes.ne_nil rfl
    | cons b' cs =>
      obtain ⟨rfl, _⟩ := List.cons.inj hmore
      exact hrefused hcompletes.takes

/-- If it breaks off later on, the bytes up to there belong to it. -/
theorem BreaksOff.cons {part rest : List UInt8} (hmany : ¬ p.missing ≤ 1) (takes : p.Takes b)
    (h : BreaksOff (p.next b) part rest) : BreaksOff p (b :: part) rest where
  opens := (opens_cons hmany takes).2 h.opens
  ends := by
    rintro b' more hcons hopens
    exact h.ends b' more hcons ((opens_cons hmany takes).1 hopens)
  never := by
    rintro bytes c hcompletes ⟨more, hmore⟩
    obtain ⟨b', rest', rfl, _, hrest⟩ := hcompletes.inv_more hmany
    obtain ⟨rfl, htail⟩ := List.cons.inj hmore
    exact h.never rest' c hrest ⟨more, htail⟩

/-- The decoder at the last byte of a character. -/
theorem step_last (one : p.missing ≤ 1) (takes : p.Takes b) :
    step (some p) b.toNat = ([some (Char.ofNat (p.grow b))], none) := by
  have hone : (if p.missing ≤ 1 then ([some (Char.ofNat (p.grow b))], none)
      else ([], some (p.next b))) = ([some (Char.ofNat (p.grow b))], none) := if_pos one
  exact (if_pos takes).trans hone

/-- The decoder at a byte that is not the last one. -/
theorem step_more (many : ¬ p.missing ≤ 1) (takes : p.Takes b) :
    step (some p) b.toNat = ([], some (p.next b)) := by
  have hmany : (if p.missing ≤ 1 then ([some (Char.ofNat (p.grow b))], none)
      else ([], some (p.next b))) = ([], some (p.next b)) := if_neg many
  exact (if_pos takes).trans hmany

/-- The decoder at a byte that cannot come next: it gives up the character, and the byte may begin
    another. -/
theorem step_refused (hrefused : ¬ p.Takes b) :
    step (some p) b.toNat = (none :: (start b.toNat).1, (start b.toNat).2) := by
  rw [step]
  exact if_neg hrefused

/-- The decoder reads what completes a character. -/
theorem decodeFrom_of_completes (h : Completes p bytes c) (rest : List UInt8) :
    decodeFrom (some p) (bytes ++ rest) = some c :: decodeFrom none rest := by
  induction h with
  | last one takes =>
    rw [List.singleton_append, decodeFrom, step_last one takes]
    rfl
  | more many takes _ ih =>
    rw [List.cons_append, decodeFrom, step_more many takes]
    exact ih

/-- **A pending character** is completed, or it breaks off and the decoder looks at the rest afresh. -/
theorem follow (h : p.Good) (bytes : List UInt8) :
    (∃ part rest c, bytes = part ++ rest ∧ Completes p part c) ∨
      ∃ part rest, bytes = part ++ rest ∧ BreaksOff p part rest ∧
        decodeFrom (some p) bytes = none :: decodeFrom none rest := by
  -- on the bytes, for any state: each byte that is taken leads to another good one
  induction bytes generalizing p with
  | nil => exact Or.inr ⟨[], [], rfl, BreaksOff.of_end h, rfl⟩
  | cons b bytes ih =>
    by_cases takes : p.Takes b
    · by_cases one : p.missing ≤ 1
      · exact Or.inl ⟨[b], bytes, _, rfl, Completes.last one takes⟩
      · obtain ⟨part, rest, c, rfl, hrest⟩ | ⟨part, rest, rfl, hbreaks, hdecode⟩ := ih (p.good_next b)
        · exact Or.inl ⟨b :: part, rest, c, rfl, Completes.more one takes hrest⟩
        · refine Or.inr ⟨b :: part, rest, rfl, hbreaks.cons one takes, ?_⟩
          rw [← hdecode, decodeFrom, step_more one takes]
          rfl
    · refine Or.inr ⟨[], b :: bytes, rfl, BreaksOff.of_refused h takes, ?_⟩
      rw [decodeFrom, step_refused takes]
      rfl

end Utf8

/-! ## The decoder

Some bytes begin with a character or with a part that cannot be read, and in both cases the decoder
goes on afresh behind it.  So its text is one that the bytes stand for, and there is no other. -/

section

variable {b : UInt8} {part rest bytes : List UInt8} {text : Text}

open Utf8

/-- A character that stands in front of bytes begins with the first of them. -/
theorem lead_of_encode_prefix {c : Char} (h : String.utf8EncodeChar c <+: b :: bytes) :
    lead b.toNat = .char c ∨ ∃ p cs, lead b.toNat = .more p ∧ Completes p cs c ∧ cs <+: bytes := by
  obtain ⟨b', cs, hencode, hcases⟩ := encode_cases c
  rw [hencode] at h
  obtain ⟨rfl, htail⟩ := List.cons_prefix_cons.1 h
  obtain ⟨hlead, _⟩ | ⟨p, hlead, hcompletes⟩ := hcases
  · exact Or.inl hlead
  · exact Or.inr ⟨p, cs, hlead, hcompletes, htail⟩

/-- A byte that begins no character cannot be read. -/
theorem unreadable_of_bad (hlead : lead b.toNat = .bad) (rest : List UInt8) : Unreadable [b] rest where
  ne_nil := List.cons_ne_nil _ _
  none := by
    intro c hc
    obtain hchar | ⟨p, _, hmore, _⟩ := lead_of_encode_prefix hc
    · exact nomatch hchar.symm.trans hlead
    · exact nomatch hmore.symm.trans hlead
  begins := Or.inr rfl
  maximal := by
    intro b' more _ hbegins
    obtain ⟨c, hchar, _⟩ | ⟨p, hmore, _⟩ := begins_cons.1 hbegins
    · exact nomatch hchar.symm.trans hlead
    · exact nomatch hmore.symm.trans hlead

/-- A character that breaks off cannot be read. -/
theorem unreadable_of_breaksOff {p : Pending} (hlead : lead b.toNat = .more p)
    (h : BreaksOff p part rest) : Unreadable (b :: part) rest where
  ne_nil := List.cons_ne_nil _ _
  none := by
    intro c hc
    obtain hchar | ⟨q, cs, hmore, hcompletes, hle⟩ := lead_of_encode_prefix hc
    · exact nomatch hchar.symm.trans hlead
    · obtain rfl : q = p := Lead.more.inj (hmore.symm.trans hlead)
      exact h.never cs c hcompletes hle
  begins := Or.inl (begins_cons.2 (Or.inr ⟨p, hlead, h.opens⟩))
  maximal := by
    intro b' more hcons hbegins
    obtain ⟨c, hchar, _⟩ | ⟨q, hmore, hopens⟩ := begins_cons.1 hbegins
    · exact nomatch hchar.symm.trans hlead
    · obtain rfl : q = p := Lead.more.inj (hmore.symm.trans hlead)
      exact h.ends b' more hcons hopens

/-- A character is read from its bytes. -/
theorem decode_char (c : Char) (rest : List UInt8) :
    decode (String.utf8EncodeChar c ++ rest) = some c :: decode rest := by
  obtain ⟨b, bytes, hencode, hcases⟩ := encode_cases c
  rw [hencode, List.cons_append, decode, decodeFrom, step, start]
  obtain ⟨hlead, rfl⟩ | ⟨p, hlead, h⟩ := hcases
  · rw [hlead]
    rfl
  · rw [hlead]
    exact decodeFrom_of_completes h rest

/-- Nothing is replaced there. -/
theorem decodeLossy_char (c : Char) (rest : List UInt8) :
    decodeLossy (String.utf8EncodeChar c ++ rest) = c :: decodeLossy rest := by
  rw [decodeLossy, decode_char]
  rfl

/-- A text is read back from its bytes. -/
theorem decode?_encode (s : Text) : decode? (encode s) = some s := by
  induction s with
  | nil => rfl
  | cons c s ih =>
    have hrest : (decode (encode s)).mapM id = some s := ih
    rw [encode, List.flatMap_cons, decode?, decode_char, List.mapM_cons]
    show (do
      let rest ← (decode (encode s)).mapM id
      pure (c :: rest)) = _
    rw [hrest]
    rfl

/-- **What stands first in some bytes**: a character, or a part that the decoder replaces. -/
theorem first_cases (b : UInt8) (bytes : List UInt8) :
    (∃ c rest, b :: bytes = String.utf8EncodeChar c ++ rest) ∨
      ∃ part rest, b :: bytes = part ++ rest ∧ Unreadable part rest ∧
        decodeLossy (b :: bytes) = '\ufffd' :: decodeLossy rest := by
  have hdecode : decode (b :: bytes) = (start b.toNat).1 ++ decodeFrom (start b.toNat).2 bytes := rfl
  -- by what the first byte announces
  cases hlead : lead b.toNat with
  | char c =>
    refine Or.inl ⟨c, bytes, ?_⟩
    rw [encode_of_char hlead]
    rfl
  | more p =>
    obtain ⟨part, rest, c, rfl, h⟩ | ⟨part, rest, rfl, h, hrest⟩ := follow (good_of_lead hlead) bytes
    · refine Or.inl ⟨c, rest, ?_⟩
      rw [encode_of_completes hlead h]
      rfl
    · refine Or.inr ⟨b :: part, rest, rfl, unreadable_of_breaksOff hlead h, ?_⟩
      rw [decodeLossy, hdecode, start, hlead]
      show (decodeFrom (some p) (part ++ rest)).map _ = _
      rw [hrest]
      rfl
  | bad =>
    refine Or.inr ⟨[b], bytes, rfl, unreadable_of_bad hlead bytes, ?_⟩
    rw [decodeLossy, hdecode, start, hlead]
    rfl

/-- No part that cannot be read goes on inside another one. -/
theorem Unreadable.length_le {part' rest' : List UInt8} (h : Unreadable part rest)
    (h' : Unreadable part' rest') (heq : part ++ rest = part' ++ rest') : part'.length ≤ part.length := by
  refine Nat.le_of_not_lt fun hlt => ?_
  obtain ⟨more, hmore⟩ : part <+: part' :=
    List.prefix_of_prefix_length_le ⟨rest, heq⟩ (List.prefix_append part' rest') (by omega)
  cases more with
  | nil =>
    rw [List.append_nil] at hmore
    rw [hmore] at hlt
    exact Nat.lt_irrefl _ hlt
  | cons b more =>
    -- the shorter part and its next byte would begin what the longer one begins
    have hrest : rest = b :: (more ++ rest') := by
      rw [← hmore, List.append_assoc] at heq
      exact List.append_cancel_left heq
    obtain ⟨c, hc⟩ | hone := h'.begins
    · refine h.maximal b _ hrest ⟨c, List.IsPrefix.trans ⟨more, ?_⟩ hc⟩
      rw [List.append_assoc]
      exact hmore
    · have hpos := List.length_pos_iff.2 h.ne_nil
      omega

/-- **A part that cannot be read** is replaced as a whole. -/
theorem decodeLossy_of_unreadable (h : Unreadable part rest) :
    decodeLossy (part ++ rest) = '\ufffd' :: decodeLossy rest := by
  cases part with
  | nil => exact absurd rfl h.ne_nil
  | cons b part =>
    obtain ⟨c, rest', hc⟩ | ⟨part', rest', heq, h', hdecode⟩ := first_cases b (part ++ rest)
    · exact absurd ⟨rest', hc.symm⟩ (h.none c)
    · have hlength : (b :: part).length = part'.length :=
        Nat.le_antisymm (h'.length_le h heq.symm) (h.length_le h' heq)
      obtain ⟨-, rfl⟩ := List.append_inj heq hlength
      exact hdecode

/-- The decoder's text is one that the bytes stand for. -/
theorem decodes_decodeLossy (bytes : List UInt8) : Decodes bytes (decodeLossy bytes) := by
  induction hlength : bytes.length using Nat.strongRecOn generalizing bytes with
  | ind n ih =>
    cases bytes with
    | nil => exact Decodes.nil
    | cons b bytes =>
      obtain ⟨c, rest, hc⟩ | ⟨part, rest, heq, h, -⟩ := first_cases b bytes
      · -- a character takes a byte at least, and so does a part that cannot be read
        have hshorter : rest.length < n := by
          obtain ⟨b', cs, hencode, -⟩ := encode_cases c
          rw [← hlength, hc, hencode, List.length_append, List.length_cons]
          omega
        rw [hc, decodeLossy_char]
        exact Decodes.char c (ih _ hshorter rest rfl)
      · have hshorter : rest.length < n := by
          have hpos := List.length_pos_iff.2 h.ne_nil
          rw [← hlength, heq, List.length_append]
          omega
        rw [heq, decodeLossy_of_unreadable h]
        exact Decodes.replaced h (ih _ hshorter rest rfl)

/-- **The decoder reads bytes as the text that they stand for.** -/
theorem decodes_iff : Decodes bytes text ↔ text = decodeLossy bytes := by
  refine ⟨?_, ?_⟩
  · intro h
    induction h with
    | nil => rfl
    | char c _ ih => rw [decodeLossy_char, ih]
    | replaced bad _ ih => rw [decodeLossy_of_unreadable bad, ih]
  · rintro rfl
    exact decodes_decodeLossy bytes

/-- The first two bytes might begin a character; the third might not, nor go on with them. -/
example : Decodes [0xE2, 0x82, 0xFF, 0x41] ['\ufffd', '\ufffd', 'A'] := decodes_iff.2 (by decide)

end
end TunnelBoard
