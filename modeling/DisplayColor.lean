import DisplayColor.Adaptation
import DisplayColor.CommandLine.Arguments
import DisplayColor.CommandLine.Folder
import DisplayColor.CommandLine.Place
import DisplayColor.CommandLine.Program
import DisplayColor.CommandLine.Report
import DisplayColor.CommandLine.Request
import DisplayColor.Device.Binder
import DisplayColor.Device.Recorder
import DisplayColor.Fingerprint.Reference
import DisplayColor.Fingerprint.Sha256
import DisplayColor.Gamut.Colorimetry
import DisplayColor.Gamut.Intent
import DisplayColor.Gamut.Named
import DisplayColor.Lut.Cube
import DisplayColor.Lut.Curves
import DisplayColor.Lut.Table
import DisplayColor.Main
import DisplayColor.Mat3
import DisplayColor.Mat4
import DisplayColor.Transfer.Curve
import DisplayColor.Numeral.Fixed
import DisplayColor.Numeral.Layout
import DisplayColor.Numeral.Reading
import DisplayColor.Numeral.Shortest
import DisplayColor.Pipeline.Conversion
import DisplayColor.Pipeline.Description
import DisplayColor.Pipeline.Settings
import DisplayColor.Pipeline.Fusion
import DisplayColor.Pipeline.Listing
import DisplayColor.Pipeline.Notation
import DisplayColor.Pipeline.Operation
import DisplayColor.Pipeline.SettingsDocument
import DisplayColor.Pipeline.ToneCurve
import DisplayColor.Scalar
import DisplayColor.Scalar.Binary
import DisplayColor.Proofs.Exact
import DisplayColor.Shader.Block
import DisplayColor.Shader.Opcode
import DisplayColor.Shader.Packing
import DisplayColor.Shader.Slots
import DisplayColor.Shader.Source
import DisplayColor.Transfer.Function
import DisplayColor.Transfer.Formulas
import DisplayColor.Vec3
import DisplayColor.Workspace
import DisplayColor.Yaml.Cursor
import DisplayColor.Yaml.Document
import DisplayColor.Yaml.Event
import DisplayColor.Yaml.Layout
import DisplayColor.Yaml.Name
import DisplayColor.Yaml.Scalar
import DisplayColor.Yaml.Token
import DisplayColor.Proofs.Fusion.Build
import DisplayColor.Proofs.Fusion.NormalForm
import DisplayColor.Proofs.Matrices
import DisplayColor.Proofs.Fusion.Comparisons
import DisplayColor.Proofs.Fusion.Meaning
import DisplayColor.Proofs.Fusion.Composition
import DisplayColor.Proofs.Shader.Packing
import DisplayColor.Proofs.Gamut.Adaptation
import DisplayColor.Proofs.Shader.Agreement
import DisplayColor.Proofs.Gamut.Conversion
import DisplayColor.Proofs.Description.LightConversion
import DisplayColor.Proofs.Device.Binding
import DisplayColor.Proofs.Device.Lifetimes
import DisplayColor.Proofs.Fusion.Seams
import DisplayColor.Proofs.Description.ScaledSelf
import DisplayColor.Proofs.Description.RoundTrip
import DisplayColor.Proofs.Fusion.Size
import DisplayColor.Proofs.Shader.Fit
import DisplayColor.Proofs.Device.Conversion
import DisplayColor.Proofs.Fusion.Ranges
import DisplayColor.Proofs.Fusion.Undoing
import DisplayColor.Proofs.Device.Ownership
import DisplayColor.Proofs.Description.Repair
import DisplayColor.Proofs.ToneCurve
import DisplayColor.Proofs.Description.ToneMapping
import DisplayColor.Proofs.Fusion.Drift
import DisplayColor.Proofs.Scalar.Mantissas
import DisplayColor.Proofs.Scalar.Rounding
import DisplayColor.Proofs.Scalar.Packing
import DisplayColor.Proofs.Scalar.Magnitude
import DisplayColor.Proofs.Description.Finiteness
import DisplayColor.Proofs.Magnitudes
import DisplayColor.Proofs.Gamut.Magnitudes
import DisplayColor.Proofs.Fusion.Magnitudes
import DisplayColor.Proofs.Description.Magnitudes
import DisplayColor.Proofs.Gamut.Primaries
import DisplayColor.Proofs.Fusion.Replay
import DisplayColor.Proofs.Shader.Slots
import DisplayColor.Proofs.Shader.Upload
import DisplayColor.Proofs.Fusion.Mixing
import DisplayColor.Proofs.Gamut.Directions
import DisplayColor.Proofs.Gamut.DegenerateWhites
import DisplayColor.Proofs.Transfer.Inverses
import DisplayColor.Proofs.Lut.Curves
import DisplayColor.Proofs.Lut.Grids
import DisplayColor.Proofs.Lut.Cells
import DisplayColor.Proofs.Lut.Cube
import DisplayColor.Proofs.Lut.AffineCubes
import DisplayColor.Proofs.Lut.RawCubes
import DisplayColor.Proofs.Scalar.WholeNumbers
import DisplayColor.Proofs.Description.Notation
import DisplayColor.Proofs.Scalar.Overflow
import DisplayColor.Proofs.ToneCurve.Constants
import DisplayColor.Proofs.Fusion.Gains
import DisplayColor.Proofs.Extended
import DisplayColor.Proofs.Description.Overrides
