import ModuleAtlas.Text.Encoding
/-!
Bytes of texts. A text of the basic alphabet is read from its bytes again (`decode?_utf8`,
`decodeReplacing_utf8`), and without carriage returns its lines stay as they are
(`unifyNewlines_eq`).
-/
namespace ModuleAtlas.Text

theorem units_utf8 {t : Text} (basic : ∀ c ∈ t, c.toNat < 128) : units (utf8 t) = t.map some := by
  induction t with
  | nil => simp [utf8, units]
  | cons c t ih =>
    have small : c.toNat ≤ 127 := Nat.le_of_lt_succ (basic c (by simp))
    have later := ih fun d among => basic d (by simp [among])
    have one : bytesOf c = [UInt8.ofNat c.toNat] := by
      cases c with
      | scalar c =>
        have small : c.toNat ≤ 127 := small
        simp [bytesOf, String.utf8EncodeChar, small]
      | surrogate index => exact absurd small (by simp only [CodePoint.toNat]; omega)
    have byte : (UInt8.ofNat c.toNat).toNat = c.toNat := by
      simp
      omega
    have read : readUnit (UInt8.ofNat c.toNat) (utf8 t) = (some c, utf8 t) := by
      rw [readUnit, byte, if_pos (by omega), CodePoint.ofNat_toNat]
    rw [utf8, List.flatMap_cons, one, List.singleton_append, ← utf8, units, read, later]
    rfl

theorem decode?_utf8 {t : Text} (basic : ∀ c ∈ t, c.toNat < 128) : decode? (utf8 t) = some t := by
  have all : ∀ t : Text, (t.map some).mapM id = some t := by
    intro t
    induction t with
    | nil => rfl
    | cons c t ih => simp [List.mapM_cons, ih]
  rw [decode?, units_utf8 basic, all]

theorem decodeReplacing_utf8 {t : Text} (basic : ∀ c ∈ t, c.toNat < 128) :
    decodeReplacing (utf8 t) = t := by
  rw [decodeReplacing, units_utf8 basic, List.map_map]
  exact List.map_id t

theorem unifyNewlines_eq {t : Text} (none : .scalar '\r' ∉ t) : unifyNewlines t = t := by
  induction t with
  | nil => rfl
  | cons c t ih =>
    have later := ih fun among => none (List.mem_cons_of_mem c among)
    have apart : c ≠ '\r' := fun same => none (same ▸ List.mem_cons_self)
    rw [unifyNewlines.eq_def]
    split
    all_goals simp_all

end ModuleAtlas.Text
