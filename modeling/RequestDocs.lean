import RequestDocs.Json.Reader
import RequestDocs.OpenApi.Requests
import RequestDocs.OpenApi.Reading
import RequestDocs.OpenApi.Loading
import RequestDocs.Command.Run
import RequestDocs.Main
import RequestDocs.Proofs.OrderIndependence
import RequestDocs.Proofs.ServiceFolders
import RequestDocs.Proofs.DeclaredVariables
import RequestDocs.Proofs.CrossReferences
import RequestDocs.Proofs.ModuleCalls
import RequestDocs.Proofs.AddedModels
import RequestDocs.Proofs.DistinctPaths
import RequestDocs.Proofs.OperationRows
import RequestDocs.Proofs.PrintedVerbs
import RequestDocs.Proofs.NullableTypes
import RequestDocs.Proofs.NamingOrder
import RequestDocs.Proofs.DepthLimits
import RequestDocs.Proofs.RepeatedSamples
import RequestDocs.Proofs.TemplateReadings
import RequestDocs.Proofs.TemplateGrammar
import RequestDocs.Proofs.ReportedIssues
import RequestDocs.Proofs.BodyKeys
import RequestDocs.Proofs.SentParameters
import RequestDocs.Proofs.ContentTypes
import RequestDocs.Proofs.BaseChains
import RequestDocs.Proofs.RelativePaths
import RequestDocs.Proofs.QueueCalls
import RequestDocs.Proofs.NameCalls
import RequestDocs.Proofs.NameAttempts
import RequestDocs.Proofs.ConvertedNames
import RequestDocs.Proofs.ComponentCache
import RequestDocs.Proofs.FieldWords
