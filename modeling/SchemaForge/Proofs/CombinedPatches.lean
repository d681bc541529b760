import SchemaForge.Proofs.RevisionHistory

/-! Patches that follow one another. Dropping managed members, looking for readonly ones and putting the rest over
a document all go through a patch member by member, so two accepted patches do what the second put over the first
does at once, and a patch that was accepted does nothing when it comes again. The patch that is put together may be
checked where one of the two was not, since a patch with nothing to say is accepted unchecked. -/
namespace SchemaForge.Artifacts

variable {artifacts : Artifacts} {managed : ManagedFields} {key : String}

/-- What is effective of two patches put together is what is effective of each, put together. -/
theorem effectiveMembers_putAll (managed : ManagedFields) (first second : Entries Json) :
    effectiveMembers managed (first.putAll second) =
      (effectiveMembers managed first).putAll (effectiveMembers managed second) :=
  Entries.filter_putAll (fun name => !managed.contains name) first second

theorem nodup_names_effectiveMembers {members : Entries Json} (hNodup : members.names.Nodup) :
    (effectiveMembers managed members).names.Nodup := by
  rw [names_effectiveMembers]
  exact hNodup.filter _

/-- Two accepted patches are accepted as one. -/
theorem revise_putAll {document between revised : Json} {first second : Entries Json} (hNodup : first.names.Nodup)
    (hFirst : artifacts.revise managed key document (.object first) = .ok between)
    (hSecond : artifacts.revise managed key between (.object second) = .ok revised) :
    artifacts.revise managed key document (.object (first.putAll second)) = .ok revised := by
  obtain ⟨typeName, _, hType, ⟨⟩, hFirstUntouched, rfl, hFirstValid⟩ := revise_eq_ok hFirst
  obtain ⟨sameName, _, hSame, ⟨⟩, hSecondUntouched, hRevised, hSecondValid⟩ := revise_eq_ok hSecond
  obtain rfl : typeName = sameName := Option.some.inj (hType.symm.trans hSame)
  have hTogether : revised = .object (document.members.putAll (effectiveMembers managed (first.putAll second))) := by
    rw [hRevised, effectiveMembers_putAll]
    exact congrArg Json.object (Entries.putAll_putAll _ (nodup_names_effectiveMembers hNodup) _)
  rw [hTogether]
  refine revise_of_untouched hType (fun name hName => ?_) ?_
  · rw [effectiveMembers_putAll] at hName
    rcases Entries.mem_names_putAll.mp hName with hEarlier | hLater
    · exact hFirstUntouched name hEarlier
    · exact hSecondUntouched name hLater
  · -- A second patch with nothing to say leaves the question to the first one.
    rw [← hTogether]
    rcases hSecondValid with hEmpty | hValid
    · rw [effectiveMembers_putAll, hEmpty]
      rw [hEmpty] at hRevised
      rw [hRevised]
      exact hFirstValid
    · exact Or.inr hValid

/-- A patch that was accepted is accepted again and changes nothing. -/
theorem revise_again {document revised : Json} {members : Entries Json} (hNodup : members.names.Nodup)
    (hRevise : artifacts.revise managed key document (.object members) = .ok revised) :
    artifacts.revise managed key revised (.object members) = .ok revised := by
  obtain ⟨typeName, _, hType, ⟨⟩, hUntouched, hRevised, hValid⟩ := revise_eq_ok hRevise
  have hSame : .object (revised.members.putAll (effectiveMembers managed members)) = revised := by
    rw [hRevised]
    exact congrArg Json.object (Entries.putAll_of_find? fun _ hMem =>
      Entries.find?_putAll_of_mem (nodup_names_effectiveMembers hNodup) hMem _)
  calc artifacts.revise managed key revised (.object members)
      = .ok (.object (revised.members.putAll (effectiveMembers managed members))) :=
        revise_of_untouched hType hUntouched (by rwa [hSame])
    _ = .ok revised := by rw [hSame]

/-- Two patches that are accepted one after the other lead where the second put over the first leads at once, and
an accepted patch that is sent again changes nothing. Documents are the same with the places of their members,
whether or not there was an object to begin with. A patch names every field once. -/
theorem revise_combined_and_repeated {document between : Json} {first : Entries Json} (hNodup : first.names.Nodup)
    (hFirst : artifacts.revise managed key document (.object first) = .ok between) :
    (∀ (second : Entries Json) (revised : Json), artifacts.revise managed key between (.object second) = .ok revised →
      artifacts.revise managed key document (.object (first.putAll second)) = .ok revised) ∧
    artifacts.revise managed key between (.object first) = .ok between :=
  ⟨fun _ _ => revise_putAll hNodup hFirst, revise_again hNodup hFirst⟩

/-- The first patch moves nothing and drops a managed name, the second one adds a member and gives an old one a new
value, each at its place. -/
theorem revise_combined_and_repeated_note :
    let declaration : Declaration :=
      ⟨"Note", true, .object [⟨"size", .primitive .number, true, false⟩, ⟨"slug", .primitive .string, true, true⟩],
        Position.start⟩
    let artifacts := build Policy.standard (Catalog.ofDeclarations [declaration])
    let document : Json := .object [("title", .string "A"), ("slug", .string "a"), ("category", .string "B")]
    let first : Entries Json := [("id", .null), ("category", .string "C")]
    let second : Entries Json := [("size", .number (.integer 1)), ("category", .string "D")]
    let between : Json := .object [("title", .string "A"), ("slug", .string "a"), ("category", .string "C")]
    let revised : Json := .object
      [("title", .string "A"), ("slug", .string "a"), ("category", .string "D"), ("size", .number (.integer 1))]
    artifacts.revise ManagedFields.standard "note" document (.object first) = .ok between ∧
      artifacts.revise ManagedFields.standard "note" between (.object second) = .ok revised ∧
      first.putAll second = [("id", .null), ("category", .string "D"), ("size", .number (.integer 1))] ∧
      artifacts.revise ManagedFields.standard "note" document (.object (first.putAll second)) = .ok revised ∧
      artifacts.revise ManagedFields.standard "note" between (.object first) = .ok between := by
  intro declaration artifacts document first second between revised
  have hType : artifacts.validators.find? "note" = some "Note" := by decide
  have hFirst : artifacts.revise ManagedFields.standard "note" document (.object first) = .ok between :=
    revise_of_untouched hType (by decide) (Or.inr (by decide))
  have hSecond : artifacts.revise ManagedFields.standard "note" between (.object second) = .ok revised :=
    revise_of_untouched hType (by decide) (Or.inr (by decide))
  obtain ⟨hCombined, hAgain⟩ := revise_combined_and_repeated (by decide) hFirst
  exact ⟨hFirst, hSecond, rfl, hCombined second revised hSecond, hAgain⟩

end SchemaForge.Artifacts
