/-
# `Tavernmx.Client.NameColor` — the colour of a user name

`chat_name_to_color` hashes the name, takes three bytes of the hash for red, green
and blue, and adds 20 to each of them until the colour is light enough to be read:

    too dark      (299 r + 587 g + 114 b) / 1000 < 128

All three are added to, whatever they are, so the loop ends after seven rounds at
most (`brighten_spec`).  But a colour can be dark and have a bright channel: blue
counts little.  Such a channel is pushed beyond a byte, and `IM_COL32` then shifts
it into its neighbour.  The bytes that are safe are those whose brightest has room
for the rounds that the three ask for (`HasRoom`).
-/
import Tavernmx.Shared.Block

namespace Tavernmx.Client

open Messaging (Bytes)

/-- `std::rotl`, for a count between 1 and 31. -/
def rotl (x n : UInt32) : UInt32 := (x <<< n) ||| (x >>> (32 - n))

/-- `std::rotr`, for a count between 1 and 31. -/
def rotr (x n : UInt32) : UInt32 := (x >>> n) ||| (x <<< (32 - n))

structure Color where
  r : UInt32
  g : UInt32
  b : UInt32
  deriving DecidableEq, Repr

namespace Color

/-- `color_too_dark`. -/
def tooDark (color : Color) : Bool :=
  (color.r * 299 + color.g * 587 + color.b * 114) / 1000 < 128

/-- The body of the loop. -/
def brighter (color : Color) : Color := ⟨color.r + 20, color.g + 20, color.b + 20⟩

/-- `while (color_too_dark(r, g, b))`, with `none` for a loop that is still running. -/
def brighten : Nat → Color → Option Color
  | 0, _ => none
  | fuel + 1, color => if color.tooDark then brighten fuel color.brighter else some color

/-- `IM_COL32(r, g, b, 255)`. -/
def imCol32 (color : Color) : UInt32 :=
  ((255 : UInt32) <<< 24) ||| (color.b <<< 16) ||| (color.g <<< 8) ||| color.r

/-- Every channel is a byte. -/
def IsBytes (color : Color) : Prop := color.r ≤ 255 ∧ color.g ≤ 255 ∧ color.b ≤ 255

instance (color : Color) : Decidable color.IsBytes := inferInstanceAs (Decidable (_ ∧ _))

end Color

/-- The hash of a name. -/
def chatNameHash (chatName : Bytes) : UInt32 :=
  chatName.foldl (fun hash c => c.toUInt32 + (rotl hash 5 - hash)) 0

/-- The colour before it is brightened. -/
def chatNameChannels (chatName : Bytes) : Color :=
  let hash := chatNameHash chatName
  ⟨rotr hash 16 &&& 0xff, rotr hash 8 &&& 0xff, hash &&& 0xff⟩

/-- `chat_name_to_color`, with `none` for a loop that is still running. -/
def chatNameToColor (fuel : Nat) (chatName : Bytes) : Option UInt32 :=
  (Color.brighten fuel (chatNameChannels chatName)).map Color.imCol32

/-! ## The loop -/

namespace Color

variable {color final : Color} {n : Nat}

/-- The weighted sum of the channels. -/
def luma (color : Color) : Nat := color.r.toNat * 299 + color.g.toNat * 587 + color.b.toNat * 114

/-- Channels that stay small for so many rounds. -/
def SmallFor (n : Nat) (color : Color) : Prop :=
  color.r.toNat + 20 * n ≤ 1000 ∧ color.g.toNat + 20 * n ≤ 1000 ∧ color.b.toNat + 20 * n ≤ 1000

theorem tooDark_iff (h : color.SmallFor 0) : color.tooDark = true ↔ color.luma < 128000 := by
  obtain ⟨hr, hg, hb⟩ := h
  rw [tooDark, decide_eq_true_iff, UInt32.lt_iff_toNat_lt, luma]
  have hsum : (color.r * 299 + color.g * 587 + color.b * 114).toNat
      = color.r.toNat * 299 + color.g.toNat * 587 + color.b.toNat * 114 := by
    simp only [UInt32.toNat_add, UInt32.toNat_mul, UInt32.reduceToNat]
    omega
  rw [UInt32.toNat_div, hsum]
  simp only [UInt32.reduceToNat]
  omega

/-- One round more on every channel. -/
theorem brighter_toNat (h : color.SmallFor (n + 1)) :
    color.brighter.r.toNat = color.r.toNat + 20 ∧ color.brighter.g.toNat = color.g.toNat + 20 ∧
      color.brighter.b.toNat = color.b.toNat + 20 := by
  obtain ⟨hr, hg, hb⟩ := h
  have hadd : ∀ x : UInt32, x.toNat + 20 * (n + 1) ≤ 1000 → (x + 20).toNat = x.toNat + 20 := by
    intro x hx
    rw [UInt32.toNat_add]
    simp only [UInt32.reduceToNat]
    omega
  exact ⟨hadd _ hr, hadd _ hg, hadd _ hb⟩

/-- After so many rounds the colour is light, and not before. -/
def Rounds (n : Nat) (color : Color) : Prop :=
  128000 ≤ color.luma + 20000 * n ∧ ∀ m < n, color.luma + 20000 * m < 128000

/-- **The loop ends after that many rounds**, having added 20 in each. -/
theorem brighten_spec (hrounds : Rounds n color) (hsmall : color.SmallFor n) :
    ∃ final, brighten (n + 1) color = some final ∧ final.tooDark = false ∧
      final.r.toNat = color.r.toNat + 20 * n ∧ final.g.toNat = color.g.toNat + 20 * n ∧
      final.b.toNat = color.b.toNat + 20 * n := by
  obtain ⟨hr, hg, hb⟩ := hsmall
  have hdark : color.tooDark = true ↔ color.luma < 128000 :=
    tooDark_iff ⟨by omega, by omega, by omega⟩
  induction n generalizing color with
  | zero =>
      have hlight : color.tooDark = false := by
        rw [Bool.eq_false_iff, ne_eq, hdark]
        have := hrounds.1
        omega
      exact ⟨color, by simp [brighten, hlight], hlight, rfl, rfl, rfl⟩
  | succ n ih =>
      have hfirst := hrounds.2 0 (Nat.succ_pos n)
      have hnow : color.tooDark = true := hdark.mpr (by omega)
      obtain ⟨hr', hg', hb'⟩ := brighter_toNat (n := n) ⟨hr, hg, hb⟩
      have hluma : color.brighter.luma = color.luma + 20000 := by
        rw [luma, luma, hr', hg', hb']
        omega
      have hnext : Rounds n color.brighter := by
        rw [Rounds, hluma]
        refine ⟨by have := hrounds.1; omega, fun m hm => ?_⟩
        have := hrounds.2 (m + 1) (Nat.succ_lt_succ hm)
        omega
      obtain ⟨final, hfinal, hlight, hfr, hfg, hfb⟩ := ih hnext (by omega) (by omega) (by omega)
        (tooDark_iff ⟨by omega, by omega, by omega⟩)
      refine ⟨final, ?_, hlight, by omega, by omega, by omega⟩
      rw [brighten, if_pos hnow]
      exact hfinal

/-- The loop ends in one way. -/
theorem brighten_unique {fuel fuel' : Nat} {final' : Color} (h : brighten fuel color = some final)
    (h' : brighten fuel' color = some final') : final = final' := by
  induction fuel generalizing color fuel' with
  | zero => cases h
  | succ fuel ih =>
      cases fuel' with
      | zero => cases h'
      | succ fuel' =>
          rw [brighten] at h h'
          cases hdark : color.tooDark with
          | true =>
              rw [hdark, if_pos rfl] at h h'
              exact ih h h'
          | false =>
              rw [hdark, if_neg Bool.false_ne_true] at h h'
              exact Option.some.inj (h.symm.trans h')

/-! ## Bytes -/

/-- The brightest of the three channels. -/
def brightest (color : Color) : Nat := max color.r.toNat (max color.g.toNat color.b.toNat)

/-- The rounds that the brightest channel has room for make the colour light enough. -/
def HasRoom (color : Color) : Prop :=
  128000 ≤ color.luma + 20000 * ((255 - color.brightest) / 20)

instance (color : Color) : Decidable color.HasRoom := inferInstanceAs (Decidable (_ ≤ _))

theorem isBytes_iff : color.IsBytes ↔ color.brightest ≤ 255 := by
  simp only [IsBytes, brightest, UInt32.le_iff_toNat_le, UInt32.reduceToNat]
  omega

/-- Seven rounds are always enough. -/
theorem exists_rounds (color : Color) : ∃ n ≤ 7, Rounds n color := by
  refine ⟨(128000 - color.luma + 19999) / 20000, by omega, by omega, fun m hm => ?_⟩
  omega

/-- Brightening a colour of three bytes. -/
theorem brighten_bytes (h : color.IsBytes) :
    ∃ fuel final, brighten fuel color = some final ∧ final.tooDark = false ∧
      (final.IsBytes ↔ color.HasRoom) := by
  obtain ⟨n, hn, hrounds⟩ := exists_rounds color
  have hbytes := isBytes_iff.mp h
  have hsmall : color.SmallFor n := by
    rw [brightest] at hbytes
    exact ⟨by omega, by omega, by omega⟩
  obtain ⟨final, hfinal, hlight, hr, hg, hb⟩ := brighten_spec hrounds hsmall
  refine ⟨n + 1, final, hfinal, hlight, ?_⟩
  have hbrightest : final.brightest = color.brightest + 20 * n := by
    rw [brightest, brightest, hr, hg, hb]
    omega
  rw [isBytes_iff, hbrightest, HasRoom]
  obtain ⟨henough, hbefore⟩ := hrounds
  constructor
  · intro hfits
    omega
  · intro hroom
    -- otherwise the rounds there is room for are fewer than those it takes
    by_contra hover
    have := hbefore ((255 - color.brightest) / 20) (by omega)
    omega

end Color

/-! ## Names -/

theorem isBytes_channels (chatName : Bytes) : (chatNameChannels chatName).IsBytes := by
  have hbyte : ∀ x : UInt32, x &&& 0xff ≤ 255 := by
    intro x
    rw [UInt32.le_iff_toNat_le, UInt32.toNat_and]
    exact Nat.and_le_right
  exact ⟨hbyte _, hbyte _, hbyte _⟩

/-- **The loop ends for every name, with a colour that is not too dark; its channels are
bytes exactly when the bytes of the hash have room for its rounds.** -/
theorem chatNameColor_valid_iff (chatName : Bytes) :
    (∃ fuel color, Color.brighten fuel (chatNameChannels chatName) = some color ∧
      color.tooDark = false) ∧
    ((∃ fuel color, Color.brighten fuel (chatNameChannels chatName) = some color ∧
        color.IsBytes ∧ color.tooDark = false) ↔
      (chatNameChannels chatName).HasRoom) := by
  obtain ⟨fuel, color, hcolor, hlight, hbytes⟩ := Color.brighten_bytes (isBytes_channels chatName)
  refine ⟨⟨fuel, color, hcolor, hlight⟩, ?_, fun hroom => ?_⟩
  · rintro ⟨fuel', color', hcolor', hbytes', -⟩
    obtain rfl := Color.brighten_unique hcolor hcolor'
    exact hbytes.mp hbytes'
  · exact ⟨fuel, color, hcolor, hbytes.mpr hroom, hlight⟩

/-- `ann` has a bright blue, which ends at 265 and is packed as 9. -/
theorem chatNameColor_spills :
    chatNameChannels "ann".toUTF8.toList = ⟨1, 121, 225⟩ ∧
    Color.brighten 3 (chatNameChannels "ann".toUTF8.toList) = some ⟨41, 161, 265⟩ ∧
    (chatNameToColor 3 "ann".toUTF8.toList).map (fun packed : UInt32 => (packed >>> 16) &&& 0xff)
      = some 9 ∧
    ¬ ∃ fuel color, Color.brighten fuel (chatNameChannels "ann".toUTF8.toList) = some color ∧
      color.IsBytes ∧ color.tooDark = false := by
  have hends : Color.brighten 3 (chatNameChannels "ann".toUTF8.toList) = some ⟨41, 161, 265⟩ := by
    decide +kernel
  refine ⟨by decide +kernel, hends, by decide +kernel, ?_⟩
  rintro ⟨fuel, color, hcolor, hbytes, -⟩
  obtain rfl := Color.brighten_unique hends hcolor
  exact absurd hbytes (by decide)

end Tavernmx.Client
