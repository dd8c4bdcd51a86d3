import Superviseur.Api.SynopticStore
import Superviseur.Front.Navigation

/-!
# The addresses of the pages

`hrefFor` writes the address of a page and `parseRoute` reads it back. The slug of a synoptic is
escaped in it, but the address of a new synoptic has a word in its place, `new`, which is a valid
slug: the synoptic of that slug can be viewed, and its address for editing is that of a new one.
-/

namespace Superviseur.Route

/-- The slug of a route, when present. -/
def slug? : Route → Option String
  | login | list | admin => none
  | view slug => some slug
  | edit slug => slug

theorem ne_empty_of_isValidSlug {slug : String} (h : isValidSlug slug = true) : slug ≠ "" := by
  rintro rfl
  exact absurd h (by decide)

theorem encode_ne_new {slug : String} (h : slug ≠ "new") : UriComponent.encode slug ≠ "new" := by
  intro hencode
  have hnew : UriComponent.encode "new" = "new" := by decide
  have hdecode := UriComponent.decode_encode slug
  rw [hencode, ← hnew, UriComponent.decode_encode] at hdecode
  exact h (Option.some.inj hdecode).symm

/-- The address for editing a synoptic is read back as such, except for that of `new`. -/
theorem parse_href_edit {slug : String} (h : slug ≠ "") :
    parse (edit (some slug)).href = if slug = "new" then edit none else edit (some slug) := by
  have hparts : ((dropHash (edit (some slug)).href.toList).splitOn '/').filter
      (fun part ↦ !part.isEmpty) = ["edit".toList, (UriComponent.encode slug).toList] := by
    rw [← filter_splitOn_encode (by decide) (by decide) h, href, String.toList_append]
    rfl
  have hlogin : "edit".toList ≠ "login".toList := by decide
  have hadmin : "edit".toList ≠ "admin".toList := by decide
  have hview : "edit".toList ≠ "view".toList := by decide
  rw [parse, hparts]
  dsimp only
  rw [if_neg hlogin, if_neg hadmin, if_neg hview, if_pos rfl, List.head?_cons]
  by_cases hnew : slug = "new"
  · subst hnew
    rw [if_pos rfl, if_pos (by decide)]
  · have hne : ¬some (UriComponent.encode slug).toList = some "new".toList := fun heq ↦
      encode_ne_new hnew (String.toList_inj.mp (Option.some.inj heq))
    rw [if_neg hne, if_neg hnew, readSlug_encode h]

/-- **When the address of a page is read back as that page**: always, but for editing the synoptic
whose slug is `new`. -/
theorem parse_href_iff (route : Route) (hslug : ∀ slug ∈ route.slug?, isValidSlug slug = true) :
    parse route.href = route ↔ route ≠ edit (some "new") := by
  cases route with
  | login | list | admin =>
    exact ⟨fun _ ↦ by simp, fun _ ↦ by rfl⟩
  | view slug =>
    have hne := ne_empty_of_isValidSlug (hslug slug rfl)
    exact ⟨fun _ ↦ by simp, fun _ ↦ parse_href_view hne⟩
  | edit slug =>
    cases slug with
    | none => exact ⟨fun _ ↦ by simp, fun _ ↦ by rfl⟩
    | some slug =>
      rw [parse_href_edit (ne_empty_of_isValidSlug (hslug slug rfl))]
      by_cases hnew : slug = "new" <;> simp [hnew]

/-- A slug that begins with the reserved word. -/
theorem parse_href_iff_newYork : parse (edit (some "new-york")).href = edit (some "new-york") :=
  (parse_href_iff (edit (some "new-york")) (by decide)).mpr (by simp)

/-- **The address for editing the synoptic `new` is that of a new synoptic.** -/
theorem not_parse_href : ¬∀ route : Route, (∀ slug ∈ route.slug?, isValidSlug slug = true) →
    parse route.href = route := by
  intro h
  have hnew := h (edit (some "new")) (by decide)
  rw [parse_href_edit (by decide), if_pos rfl] at hnew
  simp at hnew

end Superviseur.Route
