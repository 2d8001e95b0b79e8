import LuauAnnotation.Proofs.Balance

/-!
# The balanced part of a text

A balanced matcher counts openers and closers and ends in front of the first closer too many. What
it takes is the longest covered part at the start of the text, since every longer part holds that
closer and with it more closers than openers. A closer that is an opener as well is never too many,
so that the whole text is taken.
-/

namespace LuauAnnotation

section

variable {opener closer : Char} {depth : Nat} {text rest : Text}

/-- In front of a closer too many no longer initial part is covered. -/
theorem Covered.prefix_of_closer {other : Text} (hother : Covered opener closer depth other)
    (hne : opener ≠ closer) (hcount : text.count closer = depth + text.count opener)
    (hstart : other <+: text ++ closer :: rest) : other <+: text := by
  rcases List.prefix_or_prefix_of_prefix hstart (List.prefix_append text (closer :: rest)) with
    hshort | ⟨inner, rfl⟩
  · exact hshort
  · have hinner : inner <+: closer :: rest := (List.prefix_append_right_inj text).mp hstart
    rcases List.prefix_cons_iff.mp hinner with rfl | ⟨inner, rfl, -⟩
    · rw [List.append_nil]
    · have hclosing := hother.right
      rw [hcount, Nat.sub_self] at hclosing
      exact absurd hclosing (not_covered_cons_closer hne)

end

/-- A text is covered as a whole, or up to a closer in front of which openers and closers are
equally many. -/
theorem exists_covered_prefix (opener closer : Char) (text : Text) :
    ∃ interior rest, text = interior ++ rest ∧ Covered opener closer 0 interior ∧
      (rest = [] ∨ opener ≠ closer ∧ rest.head? = some closer ∧
        interior.count opener = interior.count closer) := by
  by_cases hcovered : Covered opener closer 0 text
  · exact ⟨text, [], (List.append_nil text).symm, hcovered, .inl rfl⟩
  · have hne : opener ≠ closer := by
      rintro rfl
      exact hcovered (covered_self opener 0 text)
    obtain ⟨interior, rest, rfl, hinterior, hcount⟩ := exists_closer_of_not_covered hne hcovered
    rw [Nat.zero_add] at hcount
    exact ⟨interior, closer :: rest, rfl, hinterior, .inr ⟨hne, rfl, hcount.symm⟩⟩

/-- A balanced matcher always matches, and takes the longest initial part of the text in which no
initial part holds more closers than openers. If these are different characters, the match ends
where the text does, or in front of a closer and with as many closers as openers. -/
theorem Matcher.balanced_isLongest (opener closer : Char) (text : Text) :
    ∃ interior rest, text = interior ++ rest ∧
      (Matcher.balanced opener closer).length? text = some (Text.bytes interior) ∧
      Covered opener closer 0 interior ∧
      (∀ other, other <+: text → Covered opener closer 0 other → other <+: interior) ∧
      (opener ≠ closer → Text.bytes interior = Text.bytes text ∨
        (rest.head? = some closer ∧ interior.count opener = interior.count closer)) := by
  obtain ⟨interior, rest, rfl, hinterior, hend⟩ := exists_covered_prefix opener closer text
  have hlength (hspan : balancedSpan opener closer 0 (interior ++ rest) = interior.length) :
      (Matcher.balanced opener closer).length? (interior ++ rest) =
        some (Text.bytes interior) := by
    rw [length?, span?, hspan, Option.map_some, List.take_left]
  rcases hend with rfl | ⟨hne, hclosing, hcount⟩
  · rw [List.append_nil] at hlength ⊢
    exact ⟨interior, [], (List.append_nil _).symm, hlength (balancedSpan_of_covered hinterior),
      hinterior, fun other hother _ => hother, fun _ => .inl rfl⟩
  · obtain ⟨behind, rfl⟩ := List.head?_eq_some_iff.mp hclosing
    have htotal : interior.count closer = 0 + interior.count opener := by
      rw [Nat.zero_add, hcount]
    refine ⟨interior, closer :: behind, rfl,
      hlength (balancedSpan_append_closer hne hinterior htotal), hinterior, ?_,
      fun _ => .inr ⟨rfl, hcount⟩⟩
    intro other hother hcovered
    exact hcovered.prefix_of_closer hne htotal hother

/-- Behind an accent of two bytes a pair of parentheses is passed over, and the match ends in front
of the parenthesis that closes nothing. -/
theorem Matcher.balanced_isLongest_pair :
    let text := ['é', '(', 'a', ')', ')', 'b']
    (Matcher.balanced '(' ')').length? text = some 5 ∧ '(' ≠ ')' ∧
      ∃ interior rest, text = interior ++ rest ∧ Text.bytes interior = 5 ∧
        (∀ other, other <+: text → Covered '(' ')' 0 other → other <+: interior) ∧
        rest.head? = some ')' ∧ interior.count '(' = interior.count ')' := by
  intro text
  have hlength : (Matcher.balanced '(' ')').length? text = some 5 := by decide +kernel
  have hne : '(' ≠ ')' := by decide
  obtain ⟨interior, rest, htext, hmatch, -, hlongest, hend⟩ := balanced_isLongest '(' ')' text
  have hbytes : Text.bytes interior = 5 := Option.some.inj (hmatch.symm.trans hlength)
  refine ⟨hlength, hne, interior, rest, htext, hbytes, hlongest, ?_⟩
  rcases hend hne with hwhole | hclosing
  · rw [hbytes] at hwhole
    exact absurd hwhole (by decide +kernel)
  · exact hclosing

end LuauAnnotation
