import WorkflowLint.Proofs.Bounds
import WorkflowLint.Proofs.Decoding
import WorkflowLint.Report

/-!
# Comments at the margin

The words of a comment in the first column are of no account, whatever bytes they are written in.
Such a comment is a line of its own in the decoded text, and either it belongs to no section, or to
one that passes over comments.
-/
namespace WorkflowLint

open Text

variable {tabWidth : Nat} {above words words' : List Char}

/-! ## Texts -/

/-- A comment in the first column, with its line end. -/
def Text.comment (words : List Char) : List Char :=
  '#' :: words ++ ['\n']

theorem Text.endsLine_comment (words : List Char) : EndsLine (comment words) :=
  Or.inr List.getLast?_concat

theorem Line.ofText_comment (tabWidth : Nat) (hn : '\n' ∉ words) :
    ofText tabWidth (comment words) = [ofRaw tabWidth 1 ('#' :: words)] := by
  have hu : comment words = unlines ['#' :: words] ++ [] := by simp [comment, unlines]
  rw [hu, ofText_unlines_append (by simp [hn]) List.not_mem_nil]
  rfl

theorem Line.ofText_around_comment (ha : EndsLine above) (hn : '\n' ∉ words) (below : List Char) :
    ofText tabWidth (above ++ comment words ++ below) = ofText tabWidth above ++
      ofRaw tabWidth ((lines above).length + 1) ('#' :: words) ::
        (ofText tabWidth below).map (renumber (· + ((lines above).length + 1))) := by
  have hl : (lines (comment words)).length = 1 := by
    have hl := congrArg List.length (ofText_comment tabWidth hn)
    rwa [ofText, List.length_mapIdx] at hl
  rw [ofText_append (ha.append (endsLine_comment words)), ofText_append ha, ofText_comment tabWidth hn,
    lines_append ha, List.length_append, hl, List.append_assoc]
  simp [renumber, move, ofRaw, Nat.add_comm]

theorem Line.resembles_comment (number : Nat) (words words' : List Char) :
    (ofRaw tabWidth number ('#' :: words)).Resembles id 0
      (ofRaw tabWidth number ('#' :: words')) := by
  have ht : ∀ cs, trim ('#' :: cs) = '#' :: trimEnd cs := fun cs => trimEnd_cons (by decide) cs
  refine .comment ?_ ?_ rfl (Nat.le_refl 0) <;> simp [isComment, ofRaw, ht]

theorem Resemble.refl (ls : List Line) : Resemble id 0 ls ls := by
  induction ls with
  | nil => exact nil
  | cons l ls ih => exact cons (.moved l) ih

theorem Resemble.append_left {ls ms : List Line} (h : Resemble id 0 ls ms) (above : List Line) :
    Resemble id 0 (above ++ ls) (above ++ ms) := by
  induction above with
  | nil => exact h
  | cons l ls ih => exact cons (.moved l) ih

theorem Workflow.parse_around_comment (tabWidth : Nat) (ha : EndsLine above) (hn : '\n' ∉ words)
    (hn' : '\n' ∉ words') (below : List Char) :
    parse tabWidth (above ++ comment words' ++ below) =
      parse tabWidth (above ++ comment words ++ below) := by
  rw [parse, parse, Line.ofText_around_comment ha hn, Line.ofText_around_comment ha hn',
    parseLines_resembles ((Resemble.cons (Line.resembles_comment _ words words')
      (Resemble.refl _)).append_left (Line.ofText tabWidth above))]
  · rcases parseLines tabWidth _ with (_ | _) | _ <;> rfl
  · rw [Line.overflows, Line.overflows, List.any_append, List.any_append]
    rfl

/-! ## Bytes -/

variable {before words words' after : List UInt8}

/-- Bytes with a line between them that is a comment in the first column. -/
def commented (before words after : List UInt8) : List UInt8 :=
  before ++ 0x23 :: words ++ 0x0A :: after

theorem Text.Utf8.endsLine_decode (h : before = [] ∨ before.getLast? = some 0x0A) :
    EndsLine (decode before) := by
  rcases h with rfl | h
  · exact Or.inl rfl
  · obtain ⟨bs, rfl⟩ := List.getLast?_eq_some_iff.mp h
    rw [decode_append_cons (by decide)]
    exact Or.inr List.getLast?_concat

theorem Text.Utf8.decode_commented (h : before = [] ∨ before.getLast? = some 0x0A)
    (words after : List UInt8) : decode (commented before words after) =
      decode before ++ comment (decode words) ++ decode after := by
  have hw : decode (0x23 :: words) = '#' :: decode words :=
    decode_append_cons (by decide) [] words
  rw [commented, decode_append_cons (by decide), decode_append h, hw, comment]
  simp

namespace Validator

theorem receive_commented {o : Options} (h : before = [] ∨ before.getLast? = some 0x0A)
    (hs : (commented before words after).length ≤ o.maxBytes) :
    receive o (commented before words after) =
      .ok (Utf8.decode before ++ comment (Utf8.decode words) ++ Utf8.decode after) := by
  have hl : 0 < (commented before words after).length :=
    List.length_pos_of_ne_nil (by simp [commented])
  rw [receive, if_neg (by omega), Utf8.decode_commented h]

/-- Other bytes in a comment in the first column lead to the same verdict. -/
theorem checkBytes_commented (v : Validator) (o : Options)
    (h : before = [] ∨ before.getLast? = some 0x0A) (hw : 0x0A ∉ words) (hw' : 0x0A ∉ words')
    (hs : (commented before words after).length ≤ o.maxBytes)
    (hs' : (commented before words' after).length ≤ o.maxBytes) :
    v.checkBytes o (commented before words after) =
        v.checkBytes o (commented before words' after) ∧
      v.lintBytes o (commented before words after) =
        v.lintBytes o (commented before words' after) := by
  have ht := Workflow.parse_around_comment o.tabWidth (Utf8.endsLine_decode h)
    (Utf8.newline_not_mem_decode hw) (Utf8.newline_not_mem_decode hw') (Utf8.decode after)
  rw [checkBytes, checkBytes, lintBytes, lintBytes, receive_commented h hs, receive_commented h hs']
  simp only [Except.bind, checkText, lintText, reportText, ht, and_self]

/-- The beginning of a document, up to a line of a block scalar. -/
def scripted : List UInt8 :=
  Utf8.encode "jobs:\n  a:\n    steps:\n      - run: |\n          make\n".toList

def patternless : Validator :=
  ⟨.preset, .empty⟩

/-- The comment stands between two lines of the script, and one time it ends inside a character. -/
theorem checkBytes_scripted :
    patternless.checkBytes .preset (commented scripted [0xE2, 0x82] [0x20, 0xFF]) =
        patternless.checkBytes .preset (commented scripted [] [0x20, 0xFF]) ∧
      patternless.lintBytes .preset (commented scripted [0xE2, 0x82] [0x20, 0xFF]) =
        patternless.lintBytes .preset (commented scripted [] [0x20, 0xFF]) :=
  checkBytes_commented patternless .preset (Or.inr (by decide +kernel)) (by decide) (by decide)
    (by decide +kernel) (by decide +kernel)

end Validator

end WorkflowLint
