import RequestDocs.Proofs.ServiceFiles
/-!
# Kinds of files

The ends of paths tell documents and models apart, so that each kind can be taken out of the files of
a service.
-/

namespace RequestDocs

theorem FilePath.suffix_push (path component : String) :
    component.toList <:+ (push path component).toList := by
  unfold push
  split
  · exact List.suffix_refl _
  · split
    · rw [String.toList_append]
      exact List.suffix_append _ _
    · rw [String.toList_append]
      exact List.suffix_append _ _

namespace RenderedFile

def endsIn (extension : String) (file : RenderedFile) : Bool :=
  ("." ++ extension).toList.isSuffixOf file.path.toList

variable {extension extension' : String} {file : RenderedFile}

theorem endsIn_iff : file.endsIn extension = true ↔ '.' :: extension.toList <:+ file.path.toList := by
  rw [endsIn, List.isSuffixOf_iff_suffix, String.toList_append]
  rfl

theorem endsIn_push (path stem contents : String) :
    RenderedFile.endsIn extension ⟨FilePath.push path (stem ++ "." ++ extension), contents⟩ = true := by
  apply endsIn_iff.2
  apply List.IsSuffix.trans _ (FilePath.suffix_push path _)
  simp only [String.toList_append, List.append_assoc]
  exact List.suffix_append _ _

private theorem eq_of_suffix {as bs : List Char} (h : '.' :: as <:+ '.' :: bs) (hbs : '.' ∉ bs) :
    as = bs := by
  rcases List.suffix_cons_iff.1 h with heq | hsuffix
  · exact (List.cons.inj heq).2
  · exact absurd (hsuffix.subset List.mem_cons_self) hbs

theorem endsIn_unique (h : file.endsIn extension = true) (h' : file.endsIn extension' = true)
    (hdot : '.' ∉ extension.toList) (hdot' : '.' ∉ extension'.toList) : extension = extension' := by
  apply String.toList_inj.1
  rcases List.suffix_or_suffix_of_suffix (endsIn_iff.1 h) (endsIn_iff.1 h') with hsuffix | hsuffix
  · exact eq_of_suffix hsuffix hdot'
  · exact (eq_of_suffix hsuffix hdot).symm

end RenderedFile

namespace Layout

variable (label : String) (service : ServiceOutput)

theorem endsIn_renderedDocument (name : String) (d : DocumentFile) :
    (renderedDocument name d).endsIn Document.extension = true :=
  RenderedFile.endsIn_push _ _ _

theorem endsIn_renderedModel (m : Model) :
    (renderedModel label service m).endsIn modelExtension = true :=
  RenderedFile.endsIn_push _ _ _

theorem not_endsIn_both (file : RenderedFile) :
    ¬(file.endsIn Document.extension = true ∧ file.endsIn modelExtension = true) := by
  rintro ⟨hdocument, hmodel⟩
  have heq := RenderedFile.endsIn_unique hdocument hmodel (by decide) (by decide)
  exact absurd heq (by decide)

theorem filter_documents : (serviceFiles label service).filter (·.endsIn Document.extension) =
    service.documents.map (renderedDocument service.name) := by
  have hmodel (m : Model) : ¬(renderedModel label service m).endsIn Document.extension = true :=
    fun h => not_endsIn_both _ ⟨h, endsIn_renderedModel label service m⟩
  simp [serviceFiles, List.filter_map, Function.comp_def, endsIn_renderedDocument, hmodel]

theorem filter_models : (serviceFiles label service).filter (·.endsIn modelExtension) =
    service.models.map (renderedModel label service) := by
  have hdocument (d : DocumentFile) :
      ¬(renderedDocument service.name d).endsIn modelExtension = true :=
    fun h => not_endsIn_both _ ⟨endsIn_renderedDocument _ d, h⟩
  simp [serviceFiles, List.filter_map, Function.comp_def, endsIn_renderedModel, hdocument]

theorem countP_documents : (serviceFiles label service).countP (·.endsIn Document.extension) =
    service.documents.length := by
  rw [List.countP_eq_length_filter, filter_documents, List.length_map]

theorem countP_models : (serviceFiles label service).countP (·.endsIn modelExtension) =
    service.models.length := by
  rw [List.countP_eq_length_filter, filter_models, List.length_map]

end Layout

end RequestDocs
