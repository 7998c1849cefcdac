import SpannerClient.Internal.Transmission

namespace SpannerClient.DefectiveStream

open Protobuf Fuel MergeChunk PartialResultSetSource PartialResultSetReader Assembly
  RowAssembly Transmission

variable {σ : Type} {R : PartialResultSetReader σ}

end SpannerClient.DefectiveStream
