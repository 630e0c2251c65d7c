import Kne.ConfigPush
import Kne.Quoting

/-!
The command with which Nokia saves a configuration to a file, `echo "…" > file`. The configuration
is escaped for the double quotes; a shell reads it back as it was, whatever its bytes are, so the
command never becomes another one.
-/

namespace Kne.NokiaEcho

open Kne.Quoting

/-- The bytes of a text, which is in UTF-8. -/
def bytes (s : String) : List UInt8 := s.toList.flatMap String.utf8EncodeChar

lemma bytes_append (s t : String) : bytes (s ++ t) = bytes s ++ bytes t := by
  simp [bytes]

/-- `strings.NewReplacer` for replacements of single bytes: the first argument that is the byte
counts. -/
def replaceByte (oldnew : List (String × String)) (c : UInt8) : List UInt8 :=
  match oldnew.find? fun p => bytes p.1 = [c] with
  | some p => bytes p.2
  | none => [c]

def configEscaper : List (String × String) :=
  [("\\", "\\\\"), ("\"", "\\\""), ("`", "\\`"), ("$", "\\$")]

/-- `escapeConfig` for any bytes. -/
def escapeConfig (cfgBytes : List UInt8) : List UInt8 :=
  cfgBytes.flatMap (replaceByte configEscaper)

/-- The command that `ConfigPush` sends. -/
def echoCmd (cfg : List UInt8) : List UInt8 :=
  bytes "echo \"" ++ cfg ++ bytes "\" > " ++ bytes ConfigPush.pushCfgFile

/-- The characters that have a meaning for a shell. -/
def shellMark (c : UInt8) : Mark :=
  if c = '"'.toUInt8 then .quote
  else if c = '\\'.toUInt8 then .escape
  else if c = '$'.toUInt8 ∨ c = '`'.toUInt8 then .expand
  else if c = '\n'.toUInt8 then .newline
  else if c = ' '.toUInt8 ∨ c = '\t'.toUInt8 then .blank
  else if c = '>'.toUInt8 then .redirect
  else if c ∈ "|&;<()'*?[#~=%!\x7b\x7d".toList.map Char.toUInt8 then .operator
  else .literal

/-! ### Bytes -/

lemma active_shellMark_iff (c : UInt8) : (shellMark c).active = true ↔
    c = '\\'.toUInt8 ∨ c = '"'.toUInt8 ∨ c = '`'.toUInt8 ∨ c = '$'.toUInt8 := by
  unfold shellMark
  split_ifs <;> simp_all [Mark.active]
  tauto

lemma replaceByte_configEscaper (c : UInt8) :
    replaceByte configEscaper c =
      if (shellMark c).active then ['\\'.toUInt8, c] else [c] := by
  by_cases hc : (shellMark c).active = true
  · rw [if_pos hc]
    rcases (active_shellMark_iff c).mp hc with rfl | rfl | rfl | rfl <;> decide +kernel
  · rw [if_neg hc, replaceByte]
    have hnone : configEscaper.find? (fun p => bytes p.1 = [c]) = none := by
      rw [List.find?_eq_none]
      intro p hp heq
      have hkeys : (configEscaper.all fun p => (bytes p.1).all fun b => (shellMark b).active) =
          true := by decide +kernel
      have hkey := List.all_eq_true.mp hkeys p hp
      exact hc (List.all_eq_true.mp hkey c (by simp_all))
    rw [hnone]

lemma escapes_configEscaper : Escapes shellMark (replaceByte configEscaper) where
  active c hc := ⟨'\\'.toUInt8, by decide, by rw [replaceByte_configEscaper, if_pos hc]⟩
  plain c hc := by simp [replaceByte_configEscaper, hc]

/-! ### The command -/

lemma literal_of_all {s : String} (h : (bytes s).all (fun c => shellMark c = .literal) = true) :
    ∀ c ∈ bytes s, shellMark c = .literal := by
  intro c hc
  exact of_decide_eq_true (List.all_eq_true.mp h c hc)

variable (joins : Bool) (b : List UInt8)

/-- **A configuration is echoed as it is.** Whatever the bytes of the configuration: read between
double quotes, the escaped configuration adds the configuration to the word, and nowhere in it an
expansion starts or the quotes end. So the command is an `echo` of one word, which is the
configuration, to the file. A newline that is escaped may be dropped or kept; there is none. -/
theorem escapeConfig_exact :
    (∀ ts w, run shellMark joins (between ts w) (escapeConfig b) = .ok (between ts (w ++ b)) ∧
      Inside shellMark joins (between ts w) (escapeConfig b)) ∧
    tokens shellMark joins (echoCmd (escapeConfig b)) =
      .ok [.word (bytes "echo"), .word b, .redirect, .word (bytes ConfigPush.pushCfgFile)] := by
  have hword : ∀ ts w, run shellMark joins (between ts w) (escapeConfig b) =
      .ok (between ts (w ++ b)) ∧ Inside shellMark joins (between ts w) (escapeConfig b) :=
    fun _ => run_escaped escapes_configEscaper b
  refine ⟨hword, ?_⟩
  have hcmd : echoCmd (escapeConfig b) =
      bytes "echo" ++ [' '.toUInt8, '"'.toUInt8] ++ escapeConfig b ++
        ['"'.toUInt8, ' '.toUInt8, '>'.toUInt8, ' '.toUInt8] ++ bytes ConfigPush.pushCfgFile := rfl
  rw [hcmd]
  have hecho := literal_of_all (s := "echo") (by decide +kernel)
  have hfile := literal_of_all (s := ConfigPush.pushCfgFile) (by decide +kernel)
  exact tokens_redirected escapes_configEscaper hecho (by decide +kernel) hfile (by decide +kernel)
    (by decide) (by decide) (by decide) b

example : escapeConfig (bytes "set / system location \\path\\$ENV") =
    bytes "set / system location \\\\path\\\\\\$ENV" := by
  decide +kernel

/-! ### Texts -/

lemma utf8EncodeChar_high {c : Char} (hc : 128 ≤ c.toNat) :
    ∀ b ∈ String.utf8EncodeChar c, 128 ≤ b.toNat := by
  have hv : ¬c.val.toNat ≤ 127 := Nat.not_le.mpr hc
  rw [String.utf8EncodeChar, if_neg hv]
  split
  · simp; omega
  · split <;> simp <;> omega

lemma not_active_of_mem {c : Char} (hc : c ∉ "\\\"`$".toList) :
    ∀ b ∈ String.utf8EncodeChar c, (shellMark b).active = false := by
  intro b hb
  by_contra hactive
  rw [Bool.not_eq_false, active_shellMark_iff] at hactive
  by_cases hlow : c.toNat < 128
  · -- one byte, the same character
    have hbytes : String.utf8EncodeChar c = [UInt8.ofNat c.toNat] := by
      have hle : c.val.toNat ≤ 127 := Nat.le_of_lt_succ hlow
      rw [String.utf8EncodeChar, if_pos hle]
      rfl
    rw [hbytes, List.mem_singleton] at hb
    have hcode : b.toNat = c.toNat := by
      rw [hb, UInt8.toNat_ofNat']
      omega
    have hchar : c = Char.ofNat b.toNat := by rw [hcode, Char.ofNat_toNat]
    rw [hchar] at hc
    rcases hactive with rfl | rfl | rfl | rfl <;> exact hc (by decide)
  · have hhigh := utf8EncodeChar_high (Nat.not_lt.mp hlow) b hb
    rcases hactive with rfl | rfl | rfl | rfl <;> exact absurd hhigh (by decide)

lemma bytes_escapeConfig (cfg : String) :
    bytes (ConfigPush.escapeConfig cfg) = escapeConfig (bytes cfg) := by
  simp only [ConfigPush.escapeConfig, bytes, escapeConfig, String.toList_ofList, List.flatMap_assoc]
  congr 1
  funext c
  by_cases hc : c ∈ "\\\"`$".toList
  · have hcases : c = '\\' ∨ c = '"' ∨ c = '`' ∨ c = '$' := by simpa using hc
    rw [if_pos hc]
    rcases hcases with rfl | rfl | rfl | rfl <;> decide +kernel
  · have hkeep : ∀ b ∈ String.utf8EncodeChar c, replaceByte configEscaper b = [b] := fun b hb =>
      escapes_configEscaper.plain b (not_active_of_mem hc b hb)
    rw [if_neg hc, List.flatMap_singleton, List.flatMap_congr hkeep]
    simp

/-- **The push sends that command.** -/
theorem exists_echoCmd (cfg : String) : ∃ cmd, ConfigPush.echoCmd cfg = .sendConfig cmd ∧
    bytes cmd = echoCmd (escapeConfig (bytes cfg)) := by
  refine ⟨_, rfl, ?_⟩
  simp only [bytes_append, bytes_escapeConfig, echoCmd]

end Kne.NokiaEcho
