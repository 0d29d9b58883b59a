import Hakawi.SanitizeHtml.Sanitizer

/-!
# The cache changes nothing

In every state of the pass the cache is sound, so the pass with the cache and the
pass without it take the same steps.
-/

namespace SanitizeHtml

open Html

namespace Scan

/-- Both passes are at the same place and have written the same. -/
structure Mirrors (scan : Scan) (plain : Uncached.Scan) : Prop where
  cursor : scan.cursor = plain.cursor
  emission : scan.emission = plain.emission

theorem step_sound {scan : Scan} (sound : scan.cache.Sound) : scan.step.cache.Sound := by
  unfold step
  dsimp only
  split
  · exact sound
  · rename_i tagStart found
    split
    · exact sound
    · have learned := sound.readTag tagStart
      split
      · rename_i cache read
        rw [read] at learned
        exact learned
      · rename_i tag cache read
        rw [read] at learned
        split
        · exact learned.skipDroppedElement ..
        · exact learned

theorem step_mirrors {scan : Scan} {plain : Uncached.Scan} (sound : scan.cache.Sound)
    (mirrors : scan.Mirrors plain) : scan.step.Mirrors (plain.step scan.cache.source) := by
  obtain ⟨cursor, emission⟩ := mirrors
  unfold step Uncached.Scan.step
  dsimp only
  rw [cursor, emission]
  cases indexOf scan.cache.source (units "<") plain.cursor with
  | none => exact ⟨rfl, rfl⟩
  | some tagStart =>
    dsimp only
    cases skipDeclaration scan.cache.source tagStart with
    | some next => exact ⟨rfl, rfl⟩
    | none =>
      have same := sound.readTag_fst tagStart
      have source := readTag_source scan.cache tagStart
      rw [← same]
      generalize readTag scan.cache tagStart = result at source
      obtain ⟨read, cache⟩ := result
      cases read with
      | none => exact ⟨rfl, rfl⟩
      | some tag =>
        dsimp only
        split
        · exact ⟨by rw [skipDroppedElement_fst, source], rfl⟩
        · exact ⟨rfl, rfl⟩

theorem run_mirrors {scan : Scan} {plain : Uncached.Scan} (sound : scan.cache.Sound)
    (mirrors : scan.Mirrors plain) :
    scan.run.emission = (plain.run scan.cache.source).emission := by
  fun_induction Scan.run scan generalizing plain with
  | case1 scan more ih =>
    rw [Uncached.Scan.run, dif_pos (mirrors.cursor ▸ more), ih (step_sound sound)
      (step_mirrors sound mirrors), step_source]
  | case2 scan finished =>
    rw [Uncached.Scan.run, dif_neg (mirrors.cursor ▸ finished)]
    exact mirrors.emission

end Scan

theorem Reachable.sound {input : Units} {scan : Scan} (reached : Reachable input scan) :
    scan.cache.source = input ∧ scan.cache.Sound := by
  induction reached with
  | opening => exact ⟨rfl, .opening input⟩
  | step reached more ih => exact ⟨(Scan.step_source _).trans ih.1, Scan.step_sound ih.2⟩

theorem sanitizeHtml_eq_uncached (input : Units) :
    sanitizeHtml input = Uncached.sanitizeHtml input :=
  congrArg Emission.finish (Scan.run_mirrors (.opening input) ⟨rfl, rfl⟩)

/-- The scans find what they find without a cache, and so the output is the same. -/
theorem sanitizeHtml_cached (input : Units) :
    (∀ scan, Reachable input scan → ∀ position elementName,
      (findTagEnd scan.cache position).1 = Uncached.findTagEnd input position ∧
      (readTag scan.cache position).1 = Uncached.readTag input position ∧
      (skipDroppedElement scan.cache position elementName).1 =
        Uncached.skipDroppedElement input position elementName) ∧
      sanitizeHtml input = Uncached.sanitizeHtml input := by
  refine ⟨fun scan reached position elementName => ?_, sanitizeHtml_eq_uncached input⟩
  obtain ⟨rfl, sound⟩ := reached.sound
  exact ⟨findTagEnd_fst .., sound.readTag_fst position, skipDroppedElement_fst ..⟩

end SanitizeHtml
